import CoupledModels.Proofs.Solve.Iteration

/-!
# The course of an iteration

What every single step of a driven system keeps is kept by the whole iteration, however it ends.  If
the iteration ends well it has ended with a solve and a write, unless it was allowed none.  A system
that does what another one does, and notes something beside it, is iterated just as the other one.
-/

namespace CoupledModels

variable {σ τ K : Type}

namespace CoupledSystem

/-- Every step keeps a property of the state and the store, also a step that fails. -/
structure Keeps (sys : CoupledSystem σ K) (I : σ × Store K → Prop) : Prop where
  refresh : ∀ s store, I (s, store) → I ((sys.refresh store s).2, store)
  reset : ∀ s store, I (s, store) → I (sys.reset s, store)
  solveAll : ∀ s store, I (s, store) → I ((sys.solveAll s).2, store)
  push : ∀ s store, I (s, store) → I ((sys.push store s).2.2, (sys.push store s).2.1)

/-- One system does in a part of its state what another system does. -/
structure Projects (part : τ → σ) (whole : CoupledSystem τ K) (sys : CoupledSystem σ K) :
    Prop where
  refresh : ∀ store t, (whole.refresh store t).map id part = sys.refresh store (part t)
  reset : ∀ t, part (whole.reset t) = sys.reset (part t)
  solveAll : ∀ t, (whole.solveAll t).map id part = sys.solveAll (part t)
  push : ∀ store t, (whole.push store t).map id (Prod.map id part) = sys.push store (part t)
  monitored : ∀ t, whole.monitored t = sys.monitored (part t)

end CoupledSystem

namespace ConvergenceLoop

section Invariants

variable {sys : CoupledSystem σ K} {I : σ × Store K → Prop} {s s' : σ × Store K}
  {tables : List String}

theorem andThen_keeps {α β γ : Type} {P : β → Prop} {r : Except ModelError α × β}
    {next : α → β → Except ModelError γ × β} (h : P r.2) (hnext : ∀ a s, P s → P (next a s).2) :
    P (andThen r next).2 := by
  obtain ⟨r, s⟩ := r
  cases r with
  | error e => exact h
  | ok a => exact hnext a s h

theorem andThen_ok {α β γ : Type} {r : Except ModelError α × β}
    {next : α → β → Except ModelError γ × β} {c : γ} {t : β} (h : andThen r next = (.ok c, t)) :
    ∃ a s, r = (.ok a, s) ∧ next a s = (.ok c, t) := by
  obtain ⟨r, s⟩ := r
  cases r with
  | error e => cases h
  | ok a => exact ⟨a, s, rfl, h⟩

theorem keeps_renew (h : sys.Keeps I) (iteration : Nat) (hs : I s) :
    I (renew sys iteration s).2 := by
  have hrefresh := h.refresh s.1 s.2 hs
  unfold renew
  split
  · exact hs
  split
  · rename_i t heq
    rw [heq] at hrefresh
    exact h.reset t s.2 hrefresh
  · rename_i t heq
    rw [heq] at hrefresh
    exact hrefresh

variable [Scalar K]

theorem keeps_solveAndCompare (h : sys.Keeps I) (hs : I s) :
    I (solveAndCompare sys tables s).2 := by
  have hsolve := h.solveAll s.1 s.2 hs
  unfold solveAndCompare
  split
  · exact hs
  split
  · rename_i t heq
    rw [heq] at hsolve
    exact hsolve
  rename_i t heq
  rw [heq] at hsolve
  have hpush := h.push t s.2 hsolve
  split
  · rename_i store t' heq'
    rw [heq'] at hpush
    exact hpush
  · rename_i store t' heq'
    rw [heq'] at hpush
    exact hpush

theorem keeps_runFrom (h : sys.Keeps I) (l : ConvergenceLoop K) (clock : Nat → Duration)
    (left iteration : Nat) (history : List (IterationRecord K)) (hs : I s) :
    I (runFrom l sys clock tables left iteration history s).2 := by
  induction left generalizing iteration history s with
  | zero => exact hs
  | succ left ih =>
      unfold runFrom
      refine andThen_keeps (keeps_renew h iteration hs) fun _ s hs => ?_
      refine andThen_keeps (keeps_solveAndCompare h hs) fun differences s hs => ?_
      dsimp only
      split
      · exact hs
      split
      · exact hs
      · exact ih _ _ hs

/-- What every step keeps is kept by the loop, whether it ends well or not. -/
theorem keeps_run (h : sys.Keeps I) (l : ConvergenceLoop K) (clock : Nat → Duration) (hs : I s) :
    I (l.run sys clock s).2 :=
  keeps_runFrom h l clock l.maxIterations 1 [] hs

/-- A loop that ends well, and was allowed an iteration, has solved and written last. -/
theorem runFrom_ok (h : sys.Keeps I) {l : ConvergenceLoop K} {clock : Nat → Duration}
    {left iteration : Nat} {history : List (IterationRecord K)} {report : LoopReport K} (hs : I s)
    (hrun : runFrom l sys clock tables left iteration history s = (.ok report, s')) :
    (left = 0 ∧ s' = s) ∨ ∃ t, I t ∧ sys.solveAndPush t = (.ok (), s') := by
  induction left generalizing iteration history s with
  | zero =>
      cases hrun
      exact .inl ⟨rfl, rfl⟩
  | succ left ih =>
      right
      unfold runFrom at hrun
      obtain ⟨_, t, hrenew, hrun⟩ := andThen_ok hrun
      obtain ⟨differences, u, hsolve, hrun⟩ := andThen_ok hrun
      have ht : I t := by
        have hkept := keeps_renew h iteration hs
        rwa [hrenew] at hkept
      have hu : I u := by
        have hkept : I (solveAndCompare sys tables t).2 := keeps_solveAndCompare h ht
        rwa [hsolve] at hkept
      have hlast := (solveAndCompare_ok hsolve).1
      -- however the loop ends after this, solving and writing came last
      dsimp only at hrun
      split at hrun
      · cases hrun
        exact ⟨t, ht, hlast⟩
      split at hrun
      · cases hrun
        exact ⟨t, ht, hlast⟩
      · rcases ih hu hrun with ⟨-, rfl⟩ | hlater
        · exact ⟨t, ht, hlast⟩
        · exact hlater

end Invariants

/-! ## Systems that note something -/

section Projections

variable {part : τ → σ} {whole : CoupledSystem τ K} {sys : CoupledSystem σ K}

theorem andThen_map {α β β' γ : Type} {f : β → β'} {r : Except ModelError α × β}
    {r' : Except ModelError α × β'} {next : α → β → Except ModelError γ × β}
    {next' : α → β' → Except ModelError γ × β'} (hr : r.map id f = r')
    (hnext : ∀ a s, (next a s).map id f = next' a (f s)) :
    (andThen r next).map id f = andThen r' next' := by
  subst hr
  obtain ⟨r, s⟩ := r
  cases r with
  | error e => rfl
  | ok a => exact hnext a s

theorem renew_projects (h : whole.Projects part sys) (iteration : Nat) (s : τ × Store K) :
    (renew whole iteration s).map id (Prod.map part id) =
      renew sys iteration (s.map part id) := by
  obtain ⟨t, store⟩ := s
  have hrefresh := h.refresh store t
  simp only [renew, Prod.map_apply, id_eq]
  split
  · rfl
  rw [← hrefresh]
  rcases whole.refresh store t with ⟨r, t'⟩
  cases r with
  | error e => rfl
  | ok _ => simp [← h.reset]

variable [Scalar K]

theorem solveAndCompare_projects (h : whole.Projects part sys) (tables : List String)
    (s : τ × Store K) :
    (solveAndCompare whole tables s).map id (Prod.map part id) =
      solveAndCompare sys tables (s.map part id) := by
  obtain ⟨t, store⟩ := s
  have hsolve := h.solveAll t
  simp only [solveAndCompare, Prod.map_apply, id_eq]
  cases store.snapshot tables with
  | error e => rfl
  | ok before =>
      rw [← hsolve]
      rcases whole.solveAll t with ⟨r, t'⟩
      have hpush := h.push store t'
      cases r with
      | error e => rfl
      | ok _ =>
          simp only [Prod.map_apply, id_eq]
          rw [← hpush]
          rcases whole.push store t' with ⟨r, store', t''⟩
          cases r <;> rfl

theorem runFrom_projects (h : whole.Projects part sys) (l : ConvergenceLoop K)
    (clock : Nat → Duration) (tables : List String) (left iteration : Nat)
    (history : List (IterationRecord K)) (s : τ × Store K) :
    (runFrom l whole clock tables left iteration history s).map id (Prod.map part id) =
      runFrom l sys clock tables left iteration history (s.map part id) := by
  induction left generalizing iteration history s with
  | zero => rfl
  | succ left ih =>
      unfold runFrom
      refine andThen_map (renew_projects h iteration s) fun _ s => ?_
      refine andThen_map (solveAndCompare_projects h tables s) fun differences s => ?_
      dsimp only
      split
      · rfl
      split
      · rfl
      · exact ih _ _ s

/-- What a system notes makes no difference to how it is iterated. -/
theorem run_projects (h : whole.Projects part sys) (l : ConvergenceLoop K)
    (clock : Nat → Duration) (s : τ × Store K) :
    (l.run whole clock s).map id (Prod.map part id) = l.run sys clock (s.map part id) := by
  unfold run
  rw [runFrom_projects h, h.monitored]
  rfl

end Projections

end ConvergenceLoop

end CoupledModels
