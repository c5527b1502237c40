import CoupledModels.Solve.Settings
import CoupledModels.Yaml.Decode
import CoupledModels.Number.Double

/-!
# Reading settings

The settings that a YAML document gives.  Members that are left out keep their usual values.
-/

namespace CoupledModels.Settings

open Yaml (Document)

/-- The settings of a document, of which every member may be left out. -/
def ofDocument? (d : Document) : Option (Settings Float) := do
  let usual : Settings Float := .default
  let r ← d.record? d.root
  let digits ← r.orElse? "round_digits" (d.nat? (pow2 32)) usual.roundDigits.toNat
  return {
    solver := ← r.optional? "solver" d.text?
    verbose := ← r.orElse? "verbose" d.bool? usual.verbose
    integrated := ← r.orElse? "integrated" d.bool? usual.integrated
    tolerance := ← r.orElse? "tolerance" d.float? usual.tolerance
    maxIterations := ← r.orElse? "max_iterations" (d.nat? (pow2 64)) usual.maxIterations
    solveDeadline := ← r.optional? "solve_deadline_secs" d.float?
    iterationTimeout := ← r.optional? "iteration_timeout_secs" d.float?
    parallel := ← r.orElse? "parallel" d.bool? usual.parallel
    roundDigits := UInt32.ofNat digits }

/-- Reads the settings that a text gives, and checks them. -/
def ofYaml (text : String) : Except ModelError (Settings Float) :=
  match Document.ofText? text >>= ofDocument? with
  | some s =>
      match s.validate with
      | .ok _ => .ok s
      | .error e => .error (.configuration e)
  | none => .error .yaml

end CoupledModels.Settings
