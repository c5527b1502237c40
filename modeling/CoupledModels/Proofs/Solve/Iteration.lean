import CoupledModels.Solve.Convergence
import CoupledModels.Proofs.Outcome
import CoupledModels.Proofs.Solve.Difference
import CoupledModels.Proofs.Store.Tables

/-!
# Iterations of the convergence loop

`CoupledSystem.iterate` is what the loop does from the second iteration on, without the comparison.
When the loop reports convergence it has just made an iteration whose differences are all within the
tolerance, and the state before that iteration satisfies every invariant of the loop.
-/

namespace CoupledModels

variable {σ K : Type} [Scalar K]

namespace CoupledSystem

omit [Scalar K] in
/-- Solves every sub-problem and writes the results. -/
def solveAndPush (sys : CoupledSystem σ K) (s : σ × Store K) :
    Except ModelError Unit × σ × Store K :=
  match sys.solveAll s.1 with
  | (.error e, t) => (.error e, t, s.2)
  | (.ok _, t) =>
      match sys.push s.2 t with
      | (r, store, t) => (r, t, store)

omit [Scalar K] in
/-- One iteration: exogenous data is read from the store, every sub-problem is solved again, and the
results are written to the store. -/
def iterate (sys : CoupledSystem σ K) (s : σ × Store K) : Except ModelError Unit × σ × Store K :=
  match sys.refresh s.2 s.1 with
  | (.error e, t) => (.error e, t, s.2)
  | (.ok _, t) => sys.solveAndPush (sys.reset t, s.2)

end CoupledSystem

namespace ConvergenceLoop

variable {sys : CoupledSystem σ K} {tables : List String} {s s' : σ × Store K}
  {differences : SortedMap String (Difference K)}

/-- After solving and writing, each table is compared with its rows before. -/
theorem solveAndCompare_ok (h : solveAndCompare sys tables s = (.ok differences, s')) :
    sys.solveAndPush s = (.ok (), s') ∧
      ∀ name ∈ tables, ∃ old new, s.2.getRows name .empty = .ok old ∧
        s'.2.getRows name .empty = .ok new ∧
        Difference.ofRows old new ∈ differences.values := by
  unfold solveAndCompare at h
  unfold CoupledSystem.solveAndPush
  cases hbefore : s.2.snapshot tables with
  | error e => simp [hbefore] at h
  | ok before =>
      rw [hbefore] at h
      rcases hsolve : sys.solveAll s.1 with ⟨r, t⟩
      cases r with
      | error e => simp [hsolve] at h
      | ok _ =>
          rcases hpush : sys.push s.2 t with ⟨r, store, t'⟩
          cases r with
          | error e => simp [hsolve, hpush] at h
          | ok _ =>
              simp only [hsolve, hpush] at h ⊢
              obtain ⟨hcompared, rfl⟩ := Prod.mk.inj h
              refine ⟨rfl, fun name hname => ?_⟩
              obtain ⟨es, hes, rfl⟩ := exists_of_map_eq_ok hcompared
              obtain ⟨old, hold, hget⟩ := Store.get?_snapshot hbefore hname
              -- reading a table and comparing it, as one entry of the result
              have hdiff : tables.mapM (fun name => do
                  return (name, ← (store.getRows name .empty).map
                    (Difference.ofRows ((before.get? name).getD [])))) = .ok es := by
                rw [← hes]
                congr 1
                funext name
                cases store.getRows name .empty <;> rfl
              obtain ⟨d, hd, hentry⟩ := SortedMap.get?_ofList_of_mapM hdiff hname
              obtain ⟨new, hnew, rfl⟩ := exists_of_map_eq_ok hd
              refine ⟨old, new, hold, hnew, ?_⟩
              rw [hget] at hentry
              exact List.mem_map.mpr ⟨_, SortedMap.mem_entries_of_get? hentry, rfl⟩

/-- If the loop reports convergence, its last iteration has started in a state that the invariant
holds of, and has ended with every difference within the tolerance. -/
theorem runFrom_converged {l : ConvergenceLoop K} {clock : Nat → Duration} {report : LoopReport K}
    {n : Nat} {I : σ × Store K → Prop} {left iteration : Nat} {history : List (IterationRecord K)}
    (hrun : runFrom l sys clock tables left iteration history s = (.ok report, s'))
    (hconverged : report.outcome = .converged n) (hiteration : 0 < iteration)
    (hstart : ∀ t, renew sys iteration s = (.ok (), t) → I t)
    (hstep : ∀ t d t' i u, I t → solveAndCompare sys tables t = (.ok d, t') → 1 < i →
      renew sys i t' = (.ok (), u) → I u) :
    ∃ t d, I t ∧ solveAndCompare sys tables t = (.ok d, s') ∧
      (Difference.largest d.values).within l.tolerance = true := by
  induction left generalizing iteration history s with
  | zero =>
      cases hrun
      cases hconverged
  | succ left ih =>
      unfold runFrom at hrun
      rcases hrenew : renew sys iteration s with ⟨r, t⟩
      cases r with
      | error e => simp [hrenew, andThen] at hrun
      | ok _ =>
          have hI : I t := hstart t hrenew
          rcases hsolve : solveAndCompare sys tables t with ⟨r, t'⟩
          cases r with
          | error e => simp [hrenew, hsolve, andThen] at hrun
          | ok d =>
              simp only [hrenew, hsolve, andThen] at hrun
              -- an iteration that is not settled ends in a timeout or hands over to the next one
              split at hrun
              · rename_i hwithin
                cases hrun
                exact ⟨t, d, hI, hsolve, hwithin⟩
              split at hrun
              · cases hrun
                cases hconverged
              · refine ih hrun (Nat.succ_pos _) fun u hu => ?_
                exact hstep t d t' (iteration + 1) u hI hsolve (Nat.succ_lt_succ hiteration) hu

end ConvergenceLoop

end CoupledModels
