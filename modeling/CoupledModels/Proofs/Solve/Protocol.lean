import CoupledModels.Solve.Convergence
import CoupledModels.Proofs.Outcome

/-!
# The protocol of the convergence loop

What the loop does is written down as a list of calls: every iteration copies the monitored tables,
solves, writes the results and compares, and every iteration but the first reads exogenous data and
allows solving again before that.  `ConvergenceLoop.run_follows_protocol` says that a run makes these
calls and no other ones, in this order, up to the first one that fails; that it returns the error of
that call; and that otherwise its report tells what happened.
-/

namespace CoupledModels

variable {σ K : Type} [Scalar K]

/-- A call of the loop. -/
inductive LoopCall where
  /-- Reads exogenous data from the store. -/
  | refresh
  /-- Allows every sub-problem to be solved again. -/
  | reset
  /-- Copies the rows of the monitored tables. -/
  | snapshot
  /-- Solves every sub-problem. -/
  | solve
  /-- Writes results to the store. -/
  | push
  /-- Compares the rows of the monitored tables with the latest copy. -/
  | compare
deriving DecidableEq, Repr

/-- Where the calls of a run stand. -/
structure LoopStage (σ K : Type) where
  state : σ
  store : Store K
  /-- The latest copy of the monitored tables. -/
  before : Store.Snapshot K
  /-- The results of the comparisons so far. -/
  compared : List (SortedMap String (Difference K))

namespace LoopStage

/-- Before the first call. -/
def start (s : σ × Store K) : LoopStage σ K :=
  ⟨s.1, s.2, .empty, []⟩

/-- The driven system and the store. -/
def position (t : LoopStage σ K) : σ × Store K :=
  (t.state, t.store)

/-- The stage with another driven system and store. -/
def moved (t : LoopStage σ K) (s : σ × Store K) : LoopStage σ K :=
  { t with state := s.1, store := s.2 }

/-- The records of the iterations that ended with a comparison, which are numbered from one. -/
def records (clock : Nat → Duration) (t : LoopStage σ K) : List (IterationRecord K) :=
  t.compared.mapIdx fun i differences => ⟨i + 1, differences, clock (i + 1)⟩

end LoopStage

namespace LoopCall

/-- The difference of each monitored table between the latest copy and the rows it has now. -/
def differences (tables : List String) (t : LoopStage σ K) :
    Except ModelError (SortedMap String (Difference K)) :=
  let entries := tables.mapM fun name => do
    let rows ← t.store.getRows name .empty
    return (name, Difference.ofRows ((t.before.get? name).getD []) rows)
  entries.map SortedMap.ofList

/-- Makes one call.  A call that fails leaves the stage that it has brought about. -/
def perform (sys : CoupledSystem σ K) (tables : List String) (t : LoopStage σ K) :
    LoopCall → Except ModelError Unit × LoopStage σ K
  | refresh =>
      match sys.refresh t.store t.state with
      | (r, state) => (r, { t with state })
  | reset => (.ok (), { t with state := sys.reset t.state })
  | snapshot =>
      match t.store.snapshot tables with
      | .ok before => (.ok (), { t with before })
      | .error e => (.error e, t)
  | solve =>
      match sys.solveAll t.state with
      | (r, state) => (r, { t with state })
  | push =>
      match sys.push t.store t.state with
      | (r, store, state) => (r, { t with state, store })
  | compare =>
      match differences tables t with
      | .ok d => (.ok (), { t with compared := t.compared ++ [d] })
      | .error e => (.error e, t)

/-- Makes calls one after the other, up to the first one that fails. -/
def conduct (sys : CoupledSystem σ K) (tables : List String) :
    List LoopCall → LoopStage σ K → Except ModelError Unit × LoopStage σ K
  | [], t => (.ok (), t)
  | call :: calls, t =>
      ConvergenceLoop.andThen (call.perform sys tables t) fun _ => conduct sys tables calls

/-- The calls before an iteration that make the system ready for it. -/
def renewal (iteration : Nat) : List LoopCall :=
  if iteration ≤ 1 then [] else [refresh, reset]

/-- The calls of one iteration. -/
def ofIteration (iteration : Nat) : List LoopCall :=
  renewal iteration ++ [snapshot, solve, push, compare]

/-- The calls of the iterations up to number `n`. -/
def protocol (n : Nat) : List LoopCall :=
  (List.range' 1 n).flatMap ofIteration

theorem protocol_succ (n : Nat) : protocol (n + 1) = protocol n ++ ofIteration (n + 1) := by
  unfold protocol
  rw [List.range'_1_concat, List.flatMap_append]
  simp [Nat.add_comm]

-- only the first iteration starts from the data that is there
example : protocol 2 =
    [snapshot, solve, push, compare, refresh, reset, snapshot, solve, push, compare] := by
  decide

variable {sys : CoupledSystem σ K} {tables : List String} {calls : List LoopCall}
  {t u : LoopStage σ K} {e : ModelError}

/-- Further calls are made if all calls before them succeed. -/
theorem conduct_append (calls more : List LoopCall) (t : LoopStage σ K) :
    conduct sys tables (calls ++ more) t =
      ConvergenceLoop.andThen (conduct sys tables calls t) fun _ => conduct sys tables more := by
  induction calls generalizing t with
  | nil => rfl
  | cons call calls ih =>
      rw [List.cons_append, conduct, conduct]
      rcases call.perform sys tables t with ⟨r, t'⟩
      cases r with
      | error e => rfl
      | ok _ => exact ih t'

/-- Calls that fail do so at one of them, after which none is made. -/
theorem conduct_error (h : conduct sys tables calls t = (.error e, u)) :
    ∃ made call rest stage, calls = made ++ call :: rest ∧
      conduct sys tables made t = (.ok (), stage) ∧
      call.perform sys tables stage = (.error e, u) := by
  induction calls generalizing t with
  | nil => cases h
  | cons call calls ih =>
      unfold conduct at h
      rcases hcall : call.perform sys tables t with ⟨r, t'⟩
      rw [hcall] at h
      cases r with
      | error e =>
          cases h
          exact ⟨[], call, calls, t, rfl, rfl, hcall⟩
      | ok _ =>
          obtain ⟨made, failing, rest, stage, rfl, hmade, hfailing⟩ := ih h
          refine ⟨call :: made, failing, rest, stage, rfl, ?_, hfailing⟩
          unfold conduct
          rw [hcall]
          exact hmade

end LoopCall

namespace LoopStage

omit [Scalar K] in
/-- A comparison adds the record of the next iteration. -/
theorem records_of_compared {clock : Nat → Duration} {t u : LoopStage σ K}
    {d : SortedMap String (Difference K)} (h : u.compared = t.compared ++ [d]) :
    u.records clock =
      t.records clock ++ [⟨t.compared.length + 1, d, clock (t.compared.length + 1)⟩] := by
  unfold records
  rw [h, List.mapIdx_concat]

end LoopStage

namespace ConvergenceLoop

open LoopCall

/-! ### What a report says -/

/-- The results of an iteration hardly differ from the ones before. -/
def Settled (l : ConvergenceLoop K) (r : IterationRecord K) : Prop :=
  r.maxDifference.within l.tolerance = true

/-- An iteration took longer than it may. -/
def Late (l : ConvergenceLoop K) (r : IterationRecord K) : Prop :=
  l.exceeds r.elapsed = true

/-- An iteration after which the loop goes on. -/
def Undecided (l : ConvergenceLoop K) (r : IterationRecord K) : Prop :=
  ¬ l.Settled r ∧ ¬ l.Late r

/-- The outcome of a report is what its history shows. -/
structure Truthful (l : ConvergenceLoop K) (report : LoopReport K) : Prop where
  /-- Convergence means the first iteration that is settled, with none before it that is late. -/
  converged : ∀ k, report.outcome = .converged k ↔
    ∃ r ∈ report.history, r.iteration = k ∧ l.Settled r ∧
      ∀ q ∈ report.history, q.iteration < k → ¬ l.Settled q ∧ ¬ l.Late q
  /-- A timeout means the first iteration that is late, with none up to it that is settled. -/
  timedOut : ∀ k, report.outcome = .timedOut k ↔
    ∃ r ∈ report.history, r.iteration = k ∧ l.Late r ∧
      (∀ q ∈ report.history, q.iteration < k → ¬ l.Late q) ∧
      ∀ q ∈ report.history, q.iteration ≤ k → ¬ l.Settled q
  /-- The limit is the outcome if every iteration was made and none of them ended the loop. -/
  maxIterations : ∀ k, report.outcome = .maxIterations k ↔
    k = l.maxIterations ∧ report.history.length = l.maxIterations ∧
      ∀ q ∈ report.history, ¬ l.Settled q ∧ ¬ l.Late q

variable {l : ConvergenceLoop K} {history : List (IterationRecord K)} {r : IterationRecord K}

/-- A record that ends the loop is the last one. -/
theorem eq_of_mem_concat {q : IterationRecord K} (hhistory : ∀ q ∈ history, l.Undecided q)
    (hq : q ∈ history ++ [r]) (hends : l.Settled q ∨ l.Late q) : q = r := by
  rcases List.mem_append.mp hq with hearlier | hlast
  · have hundecided := hhistory q hearlier
    rcases hends with hsettled | hlate
    · exact absurd hsettled hundecided.1
    · exact absurd hlate hundecided.2
  · exact List.mem_singleton.mp hlast

/-- A record with a smaller number than the last one did not end the loop. -/
theorem undecided_of_mem_concat {q : IterationRecord K} (hhistory : ∀ q ∈ history, l.Undecided q)
    (hq : q ∈ history ++ [r]) (hne : q.iteration ≠ r.iteration) : l.Undecided q := by
  rcases List.mem_append.mp hq with hearlier | hlast
  · exact hhistory q hearlier
  · exact absurd (congrArg (·.iteration) (List.mem_singleton.mp hlast)) hne

/-- The loop reports convergence truthfully if the last iteration is settled. -/
theorem truthful_converged (hhistory : ∀ q ∈ history, l.Undecided q) (hr : l.Settled r) :
    l.Truthful ⟨.converged r.iteration, history ++ [r]⟩ where
  converged k := by
    constructor
    · intro hk
      cases hk
      refine ⟨r, by simp, rfl, hr, fun q hq hlt => ?_⟩
      exact undecided_of_mem_concat hhistory hq (Nat.ne_of_lt hlt)
    · rintro ⟨q, hq, rfl, hsettled, -⟩
      rw [eq_of_mem_concat hhistory hq (.inl hsettled)]
  timedOut k := by
    constructor
    · intro hk
      cases hk
    · rintro ⟨q, hq, rfl, hlate, -, hunsettled⟩
      have hlast : q = r := eq_of_mem_concat hhistory hq (.inr hlate)
      exact absurd hr (hlast ▸ hunsettled q hq (Nat.le_refl _))
  maxIterations k := by
    constructor
    · intro hk
      cases hk
    · rintro ⟨-, -, hundecided⟩
      exact absurd hr (hundecided r (by simp)).1

/-- The loop reports a timeout truthfully if the last iteration is late and not settled. -/
theorem truthful_timedOut (hhistory : ∀ q ∈ history, l.Undecided q) (hunsettled : ¬ l.Settled r)
    (hr : l.Late r) : l.Truthful ⟨.timedOut r.iteration, history ++ [r]⟩ where
  converged k := by
    constructor
    · intro hk
      cases hk
    · rintro ⟨q, hq, rfl, hsettled, -⟩
      have hlast : q = r := eq_of_mem_concat hhistory hq (.inl hsettled)
      exact absurd (hlast ▸ hsettled) hunsettled
  timedOut k := by
    constructor
    · intro hk
      cases hk
      refine ⟨r, by simp, rfl, hr, fun q hq hlt => ?_, fun q hq _ hsettled => ?_⟩
      · exact (undecided_of_mem_concat hhistory hq (Nat.ne_of_lt hlt)).2
      · have hlast : q = r := eq_of_mem_concat hhistory hq (.inl hsettled)
        exact absurd (hlast ▸ hsettled) hunsettled
    · rintro ⟨q, hq, rfl, hlate, -, -⟩
      rw [eq_of_mem_concat hhistory hq (.inr hlate)]
  maxIterations k := by
    constructor
    · intro hk
      cases hk
    · rintro ⟨-, -, hundecided⟩
      exact absurd hr (hundecided r (by simp)).2

/-- The loop reports the limit truthfully if it has made every iteration and goes on after each. -/
theorem truthful_maxIterations (hhistory : ∀ q ∈ history, l.Undecided q)
    (hlength : history.length = l.maxIterations) :
    l.Truthful ⟨.maxIterations l.maxIterations, history⟩ where
  converged k := by
    constructor
    · intro hk
      cases hk
    · rintro ⟨q, hq, -, hsettled, -⟩
      exact absurd hsettled (hhistory q hq).1
  timedOut k := by
    constructor
    · intro hk
      cases hk
    · rintro ⟨q, hq, -, hlate, -, -⟩
      exact absurd hlate (hhistory q hq).2
  maxIterations k := by
    constructor
    · intro hk
      cases hk
      exact ⟨rfl, hlength, hhistory⟩
    · rintro ⟨rfl, -, -⟩
      rfl

/-! ### One iteration -/

variable {sys : CoupledSystem σ K} {tables : List String} {clock : Nat → Duration}

/-- The calls bring about what an iteration of the loop does: they fail if it does, leave the
same system and store behind, and note its differences. -/
def Performs (sys : CoupledSystem σ K) (tables : List String) (calls : List LoopCall)
    (t : LoopStage σ K)
    (result : Except ModelError (SortedMap String (Difference K)) × σ × Store K) : Prop :=
  ∃ u, conduct sys tables calls t = (result.1.map fun _ => (), u) ∧ u.position = result.2 ∧
    ∀ d, result.1 = .ok d → u.compared = t.compared ++ [d]

/-- The calls before an iteration do what the loop does there. -/
theorem conduct_renewal (i : Nat) (t : LoopStage σ K) :
    conduct sys tables (renewal i) t =
      ((renew sys i t.position).1, t.moved (renew sys i t.position).2) := by
  unfold renewal renew
  by_cases hfirst : i ≤ 1
  · rw [if_pos hfirst, if_pos hfirst]
    rfl
  · rw [if_neg hfirst, if_neg hfirst]
    unfold conduct perform LoopStage.position
    rcases sys.refresh t.store t.state with ⟨r, state⟩
    cases r <;> rfl

/-- The calls from the copy to the comparison do what the loop does with an iteration. -/
theorem performs_solveAndCompare (t : LoopStage σ K) :
    Performs sys tables [snapshot, solve, push, compare] t
      (solveAndCompare sys tables t.position) := by
  unfold Performs solveAndCompare LoopStage.position
  simp only [conduct, perform]
  -- each of the four calls either fails, which ends both sides, or hands over to the next one
  cases t.store.snapshot tables with
  | error e => exact ⟨t, rfl, rfl, nofun⟩
  | ok before =>
      rcases hsolve : sys.solveAll t.state with ⟨r, state⟩
      cases r with
      | error e =>
          simp only [andThen, hsolve]
          exact ⟨_, rfl, rfl, nofun⟩
      | ok _ =>
          rcases hpush : sys.push t.store state with ⟨r, store, state'⟩
          cases r with
          | error e =>
              simp only [andThen, hsolve, hpush]
              exact ⟨_, rfl, rfl, nofun⟩
          | ok _ =>
              simp only [andThen, hsolve, hpush, differences]
              cases tables.mapM fun name => do
                  let rows ← store.getRows name .empty
                  return (name, Difference.ofRows ((before.get? name).getD []) rows) with
              | error e => exact ⟨_, rfl, rfl, nofun⟩
              | ok entries =>
                  refine ⟨_, rfl, rfl, ?_⟩
                  intro d hd
                  cases hd
                  rfl

/-- The calls of an iteration do what the loop does in it. -/
theorem performs_ofIteration (i : Nat) (t : LoopStage σ K) :
    Performs sys tables (ofIteration i) t
      (andThen (renew sys i t.position) fun _ => solveAndCompare sys tables) := by
  unfold Performs ofIteration
  rw [conduct_append, conduct_renewal]
  rcases renew sys i t.position with ⟨r, s⟩
  cases r with
  | error e => exact ⟨t.moved s, rfl, rfl, nofun⟩
  | ok _ => exact performs_solveAndCompare (t.moved s)

/-! ### The whole run -/

omit [Scalar K] in
theorem andThen_assoc {α β γ δ : Type} (r : Except ModelError α × δ)
    (f : α → δ → Except ModelError β × δ) (g : β → δ → Except ModelError γ × δ) :
    andThen (andThen r f) g = andThen r fun a s => andThen (f a s) g := by
  rcases r with ⟨r, s⟩
  cases r <;> rfl

/-- A run follows the protocol and tells the truth about it: either every call of some iterations
succeeds and the report holds one record for each of them, or a call of the next iteration fails,
which ends the run with its error. -/
def Follows (l : ConvergenceLoop K) (sys : CoupledSystem σ K) (clock : Nat → Duration)
    (s : σ × Store K) : Except ModelError (LoopReport K) × σ × Store K → Prop
  | (.ok report, s') => ∃ n t, n ≤ l.maxIterations ∧
      conduct sys (sys.monitored s.1) (protocol n) (.start s) = (.ok (), t) ∧ t.position = s' ∧
      t.compared.length = n ∧ report.history = t.records clock ∧
      report.outcome.iterations = n ∧ l.Truthful report
  | (.error e, s') => ∃ n t, n < l.maxIterations ∧
      conduct sys (sys.monitored s.1) (protocol n) (.start s) = (.ok (), t) ∧
      t.compared.length = n ∧ (∀ r ∈ t.records clock, l.Undecided r) ∧
      ∃ made call rest u v, ofIteration (n + 1) = made ++ call :: rest ∧
        conduct sys (sys.monitored s.1) made t = (.ok (), u) ∧
        call.perform sys (sys.monitored s.1) u = (.error e, v) ∧ v.position = s'

/-- A further iteration whose calls succeed extends the calls made, and adds its record to those of
the iterations before it. -/
theorem conduct_protocol_succ (clock : Nat → Duration) {s : σ × Store K} {n : Nat}
    {t u : LoopStage σ K} {d : SortedMap String (Difference K)}
    (hmade : conduct sys tables (protocol n) (.start s) = (.ok (), t))
    (hlength : t.compared.length = n)
    (hcalls : conduct sys tables (ofIteration (n + 1)) t = (.ok (), u))
    (hcompared : u.compared = t.compared ++ [d]) :
    conduct sys tables (protocol (n + 1)) (.start s) = (.ok (), u) ∧
      u.compared.length = n + 1 ∧
      u.records clock = t.records clock ++ [⟨n + 1, d, clock (n + 1)⟩] := by
  refine ⟨?_, ?_, ?_⟩
  · rw [protocol_succ, conduct_append, hmade]
    exact hcalls
  · rw [hcompared, List.length_append, hlength, List.length_singleton]
  · rw [LoopStage.records_of_compared hcompared, hlength]

/-- From each iteration on the loop follows the protocol, if it has followed it so far and no
iteration so far has ended it. -/
theorem runFrom_follows {s : σ × Store K} {left n : Nat} {t : LoopStage σ K}
    (hleft : n + left = l.maxIterations)
    (hmade : conduct sys (sys.monitored s.1) (protocol n) (.start s) = (.ok (), t))
    (hlength : t.compared.length = n) (hundecided : ∀ r ∈ t.records clock, l.Undecided r) :
    l.Follows sys clock s
      (runFrom l sys clock (sys.monitored s.1) left (n + 1) (t.records clock) t.position) := by
  induction left generalizing n t with
  | zero =>
      have hall : n = l.maxIterations := hleft
      have hrecords : (t.records clock).length = l.maxIterations := by
        unfold LoopStage.records
        rw [List.length_mapIdx, hlength, hall]
      exact ⟨n, t, Nat.le_of_eq hall, hmade, rfl, hlength, rfl, hall.symm,
        truthful_maxIterations hundecided hrecords⟩
  | succ left ih =>
      have hlt : n < l.maxIterations := by omega
      obtain ⟨u, hcalls, hposition, hcompared⟩ : Performs sys (sys.monitored s.1)
          (ofIteration (n + 1)) t (andThen (renew sys (n + 1) t.position) fun _ =>
            solveAndCompare sys (sys.monitored s.1)) := performs_ofIteration (n + 1) t
      rw [runFrom, ← andThen_assoc]
      rcases hiteration : andThen (renew sys (n + 1) t.position)
        (fun _ => solveAndCompare sys (sys.monitored s.1)) with ⟨result, s₁⟩
      rw [hiteration] at hcalls hposition hcompared
      cases result with
      | error e =>
          obtain ⟨made, call, rest, v, hsplit, hbefore, hfailing⟩ := conduct_error hcalls
          exact ⟨n, t, hlt, hmade, hlength, hundecided, made, call, rest, v, u, hsplit, hbefore,
            hfailing, hposition⟩
      | ok d =>
          obtain ⟨hprotocol, hlength', hrecords⟩ :=
            conduct_protocol_succ clock hmade hlength hcalls (hcompared d rfl)
          -- the comparison ends the run, the time ends it, or the induction goes on
          simp only [andThen]
          split
          · rename_i hsettled
            exact ⟨n + 1, u, hlt, hprotocol, hposition, hlength', hrecords.symm, rfl,
              truthful_converged hundecided hsettled⟩
          · rename_i hunsettled
            split
            · rename_i hlate
              exact ⟨n + 1, u, hlt, hprotocol, hposition, hlength', hrecords.symm, rfl,
                truthful_timedOut hundecided hunsettled hlate⟩
            · rename_i hintime
              have hundecided' : ∀ r ∈ u.records clock, l.Undecided r := by
                rw [hrecords, List.forall_mem_append, List.forall_mem_singleton]
                exact ⟨hundecided, hunsettled, hintime⟩
              obtain rfl : u.position = s₁ := hposition
              rw [← hrecords]
              exact ih (by omega) hprotocol hlength' hundecided'

/-- A run makes the calls of the protocol and no other ones, up to the first one that fails, and
its report tells what happened. -/
theorem run_follows_protocol (l : ConvergenceLoop K) (sys : CoupledSystem σ K)
    (clock : Nat → Duration) (s : σ × Store K) :
    l.Follows sys clock s (l.run sys clock s) :=
  runFrom_follows (t := .start s) (Nat.zero_add _) rfl rfl nofun

end ConvergenceLoop

end CoupledModels
