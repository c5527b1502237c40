import CoupledModels.Catalog.Build
import CoupledModels.Configuration.Declarations
import CoupledModels.Configuration.Document
import CoupledModels.Configuration.Reader
import CoupledModels.Model.Run
import CoupledModels.Model.Storage
import CoupledModels.Number.Double
import CoupledModels.Problem.SubProblem
import CoupledModels.Proofs.Affine.Agreement
import CoupledModels.Proofs.Affine.Checked
import CoupledModels.Proofs.Arrays.Elimination
import CoupledModels.Proofs.Arrays.Lifetimes
import CoupledModels.Proofs.Arrays.StoredForms
import CoupledModels.Proofs.Catalog.Numbering
import CoupledModels.Proofs.Catalog.Supply
import CoupledModels.Proofs.Configuration.Copies
import CoupledModels.Proofs.Formula.Meaning
import CoupledModels.Proofs.Formula.Printing
import CoupledModels.Proofs.Formula.Replication
import CoupledModels.Proofs.Model.Coupling
import CoupledModels.Proofs.Model.FixedPoint
import CoupledModels.Proofs.Model.Frame
import CoupledModels.Proofs.Model.Initialization
import CoupledModels.Proofs.Model.Labels
import CoupledModels.Proofs.Model.Lifecycle
import CoupledModels.Proofs.Model.Limits
import CoupledModels.Proofs.Model.Overflow
import CoupledModels.Proofs.Model.Ownership
import CoupledModels.Proofs.Model.Solutions
import CoupledModels.Proofs.Model.StoredDecimals
import CoupledModels.Proofs.Problem.Overflow
import CoupledModels.Proofs.Problem.Representation
import CoupledModels.Proofs.Solve.Bounds
import CoupledModels.Proofs.Solve.Isolation
import CoupledModels.Proofs.Solve.Protocol
import CoupledModels.Proofs.Store.Saving
import CoupledModels.Proofs.Variables.Assignment
import CoupledModels.Proofs.Variables.Partition
import CoupledModels.Solve.Convergence
import CoupledModels.Solve.Independent
import CoupledModels.Solve.SettingsReader
import CoupledModels.Store.Document
