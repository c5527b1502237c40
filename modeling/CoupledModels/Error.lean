import CoupledModels.Sets.Key
import CoupledModels.Arrays.Shape

/-!
# Errors

Everything that can go wrong, by cause.  The causes are grouped by the phase that detects them; a
`ModelError` is a cause of any phase.  The wording of every message is in this module.
-/

namespace CoupledModels

open Text (quoted quotedList quotedMap)

/-- The coarse category of an error. -/
inductive ErrorKind where
  | configuration
  | conceptualModel
  | missingData
  | expression
  | solver
  | storage
deriving DecidableEq, Repr

/-- Ill-formed arrays and operands that do not fit. -/
inductive ArrayError where
  | unsortedPattern
  | patternLength
  | patternRange
  | dataLength
  | insufficientData
  | indexLength
  | indexRange
  | reshape (size target : List Nat)
  | product (left right : Shape)
  | elementwise (left right : Shape)
  | invertShape (shape : Shape)
  | singular
  | noPointers
  | unsortedPointers
  | pointerLength (last subscripts coefficients : Nat)
  | elementCount
  | variableCount (shape : Shape) (count : Nat)
  | reservedVariable
  | broadcast (shape target : Shape)
  | addition (left right : Shape)
  | diagonal (shape : Shape)
  | axis (axis : Nat)
deriving DecidableEq, Repr

namespace ArrayError

/-- What is wrong with the shapes or the stored form of an array. -/
def message : ArrayError → String
  | unsortedPattern => "Sparsity is unsorted or contains duplicates"
  | patternLength => "Mismatching sparsity and data lengths"
  | patternRange => "Mismatching sparsity and shape"
  | dataLength => "Mismatching data and shape"
  | insufficientData => "Insufficient data"
  | indexLength => "Mismatching data and index lengths"
  | indexRange => "Index out of bounds"
  | reshape s t => s!"Cannot reshape {Extent.text s} into {Extent.text t}"
  | product a b => s!"Mismatching shapes for product: {a.text} and {b.text}"
  | elementwise a b => s!"Mismatching shapes for element-wise product: {a.text} and {b.text}"
  | invertShape s => s!"Cannot invert non-square matrix of shape {s.text}"
  | singular => "Matrix is singular"
  | noPointers => "Invalid aptr"
  | unsortedPointers => "Invalid aptr: Not sorted"
  | pointerLength p s c =>
      s!"Mismatching aptr ({p}) and lengths of asubj (= {s}) and acof (= {c})"
  | elementCount => "Shape does not match number of elements"
  | variableCount s n => s!"Shape {s.text} does not match {n} variables"
  | reservedVariable => "Variable index 0 is reserved"
  | broadcast s t => s!"Cannot broadcast shape {s.text} to {t.text}"
  | addition a b => s!"Mismatching shapes for addition: {a.text} and {b.text}"
  | diagonal s => s!"diag needs a vector or a square matrix, got shape {s.text}"
  | axis a => s!"Invalid axis {a}"

end ArrayError

/-- Declarations and settings that contradict themselves or each other. -/
inductive ConfigurationError where
  | noCategory (dim category : String)
  | noFilter (dim name : String)
  | nothingLeft (dim : String)
  | duplicateDimension (dim : String)
  | noKindFor (key : ProblemKey)
  | unknownConstantKind (name : String)
  | notConstant (symbol : String)
  | undefinedShapeDimension (symbol dim : String)
  | shapeOffTable (symbol dim table : String)
  | sameRowsAndColumns (symbol : String)
  | noValueKind (symbol : String)
  | uselessValueKind (symbol table : String)
  | filterOffTable (symbol dim table : String)
  | undefinedCoordinate (table dim : String)
  | duplicateTable (table : String)
  | constantPerProblem (table : String)
  | kindMissing (table : String) (key : ProblemKey)
  | duplicateSymbol (symbol : String)
  | constantBinding (symbol : String)
  | size (symbol : String) (n : Nat)
  | copyOfUnknown (set other : String)
  | cyclicCopy (set : String)
  | unknownCoordinate (table dim : String)
  | unknownProblem (table label : String)
  | problemAndProblems
  | negativeTolerance (value : String)
  | noIterations
  | notPositive (setting value : String)
  | limitRange (setting : String)
deriving DecidableEq, Repr

namespace ConfigurationError

/-- What is wrong with the declarations. -/
def message : ConfigurationError → String
  | noCategory d c => s!"Dimension '{d}' has no category '{c}'"
  | noFilter d n => s!"Dimension '{d}' has no filter '{n}'"
  | nothingLeft d => s!"Filter on dimension '{d}' leaves no items"
  | duplicateDimension d => s!"Duplicate dimension '{d}'"
  | noKindFor k => s!"No table type given for sub-problem {k.display}"
  | unknownConstantKind n => s!"Unknown constant kind '{n}'"
  | notConstant v => s!"Variable '{v}' is not a constant"
  | undefinedShapeDimension v d => s!"Variable '{v}': dimension '{d}' not defined"
  | shapeOffTable v d t => s!"Variable '{v}': dimension '{d}' is not a coordinate of table '{t}'"
  | sameRowsAndColumns v => s!"Variable '{v}': rows and columns use the same dimension"
  | noValueKind v => s!"Constant variable '{v}' has no value kind"
  | uselessValueKind v t => s!"Variable '{v}' has a value kind but table '{t}' is not constant"
  | filterOffTable v d t => s!"Variable '{v}': filter on '{d}', which is not a coordinate of '{t}'"
  | undefinedCoordinate t d => s!"Table '{t}': dimension '{d}' not defined"
  | duplicateTable t => s!"Duplicate table '{t}'"
  | constantPerProblem t => s!"Table '{t}': constant tables cannot vary per sub-problem"
  | kindMissing t k => s!"Table '{t}': no type given for sub-problem {k.display}"
  | duplicateSymbol v => s!"Duplicate variable symbol '{v}'"
  | constantBinding v => s!"Variable '{v}': invalid constant binding"
  | size v n => s!"Variable '{v}': size must be 1 or a dimension, got {n}"
  | copyOfUnknown s o => s!"Set '{s}': copy_from references unknown set '{o}'"
  | cyclicCopy s => s!"Set '{s}': cyclic copy_from"
  | unknownCoordinate t d => s!"Table '{t}': unknown dimension '{d}'"
  | unknownProblem t l => s!"Table '{t}': '{l}' is not a sub-problem"
  | problemAndProblems => "Both 'problem' and 'problems' are given"
  | negativeTolerance v => s!"tolerance must be non-negative, got {v}"
  | noIterations => "max_iterations must be at least 1"
  | notPositive s v => s!"{s} must be positive, got {v}"
  | limitRange s => s!"{s} is too long"

end ConfigurationError

/-- Literal constants that a shape cannot hold. -/
inductive ConstantError where
  | identity (shape : Shape)
  | lowerTriangular (shape : Shape)
  | sumVector (shape : Shape)
  | setLength (shape : Shape)
  | unrelated
  | assignment (cause : ArrayError)
deriving DecidableEq, Repr

namespace ConstantError

/-- Why a constant has no value of the shape asked for. -/
def message : ConstantError → String
  | identity s => s!"Identity matrix must be square, variable shape is {s.text}"
  | lowerTriangular s => s!"Lower triangular matrix must be square, variable shape is {s.text}"
  | sumVector s => s!"Summation vector must have one dimension, variable shape is {s.text}"
  | setLength s => s!"Set length needs a vector shape, variable shape is {s.text}"
  | unrelated =>
      "Assignment matrix needs rows and columns over the same dimension, or related by aggregation"
  | assignment e => e.message

end ConstantError

/-- Variables and formulas that cannot be given a meaning. -/
inductive ConceptualError where
  | constant (cause : ConstantError)
  | constantOf (symbol : String) (cause : ConstantError)
  | secondIntra (symbol first second : String)
  | splittingShape (symbol table dim : String)
  | intraDimensions (text first second firstDim secondDim : String)
  | intraItems (text first second dim : String)
  | parameterShape (expected given : Shape)
deriving DecidableEq, Repr

namespace ConceptualError

/-- Why a model that is declared well makes no sense. -/
def message : ConceptualError → String
  | constant e => e.message
  | constantOf v e => s!"Variable '{v}': {e.message}"
  | secondIntra v a b => s!"Variable '{v}' has more than one intra dimension ('{a}' and '{b}')"
  | splittingShape v t d =>
      s!"Variable '{v}' of endogenous table '{t}' uses splitting dimension '{d}' as rows or columns"
  | intraDimensions t v w d e =>
      s!"'{t}': variables '{v}' and '{w}' have different intra dimensions ('{d}' and '{e}')"
  | intraItems t v w d =>
      s!"'{t}': variables '{v}' and '{w}' use different items of intra dimension '{d}'"
  | parameterShape e g =>
      s!"Parameter of shape {e.text} cannot take a value of shape {g.text}"

end ConceptualError

/-- References to something that is absent or has no data yet. -/
inductive MissingDataError where
  | dimension (dim : String)
  | items (dim : String)
  | storedTable (table : String)
  | storedDimension (dim : String)
  | block (table : String) (key : ProblemKey)
  | row (table : String) (coords : List String)
  | parameter (symbol table : String)
  | entry (symbol table : String) (row col : Nat) (filter : List (String × List String))
  | array (cause : ArrayError)
  | undefinedVariable (symbol : String)
deriving DecidableEq, Repr

namespace MissingDataError

/-- What is absent. -/
def message : MissingDataError → String
  | dimension d => s!"Dimension '{d}' not defined"
  | items d => s!"Dimension '{d}' has no items"
  | storedTable t => s!"Table '{t}' not found in storage"
  | storedDimension d => s!"Dimension '{d}' not found in storage"
  | block t k => s!"No decision block for table '{t}' and {k.display}"
  | row t r => s!"Table '{t}' has no row {quotedList r}"
  | parameter v t => s!"No data loaded for '{v}' (table '{t}')"
  | entry v t i j f =>
      s!"Missing data for '{v}' in table '{t}' at {Text.numberList [i, j]}, filter {quotedMap f}"
  | array e => e.message
  | undefinedVariable v => s!"Variable '{v}' not defined"

end MissingDataError

/-- What a reader of formulas was looking for where it stopped. -/
inductive Expectation where
  /-- An operand. -/
  | operand
  /-- A closing parenthesis. -/
  | closing
  /-- The name of a function. -/
  | function
  | oneArgument
  | twoArguments
  | fourArguments
  | oneOrTwoArguments
  /-- The end of the text. -/
  | nothing
deriving DecidableEq, Repr

namespace Expectation

/-- The words for what a reader was looking for. -/
def message : Expectation → String
  | operand => "Expected a number, identifier or '('"
  | closing => "Expected ')'"
  | function => "Expected a known function"
  | oneArgument => "Expected one argument"
  | twoArguments => "Expected two arguments"
  | fourArguments => "Expected four arguments"
  | oneOrTwoArguments => "Expected one or two arguments"
  | nothing => "Syntax error near Eof"

end Expectation

/-- Formulas whose parts do not fit together. -/
inductive TypingError where
  | identifier (name : String)
  | addition (left right : Shape)
  | decisionProduct
  | multiplication (left right : Shape)
  | elementwise (left right : Shape)
  | notNumber (argument : Nat) (function : String)
  | notInteger (argument : Nat) (function : String)
  | misplacedObjective (function : String)
  | weibullDims (dims : Int)
  | weibullLength
  | weibullRange (shape : Shape)
  | weibullTooLong (n limit : Nat)
  | weibullFactor (argument : Nat) (shape : Shape)
  | diagonal (shape : Shape)
  | axis (axis : Int)
  | decisionPower
  | decisionInverse
  | inverseShape (shape : Shape)
  | relation (left right : Shape)
  | objective (shape : Shape)
deriving DecidableEq, Repr

namespace TypingError

/-- What is wrong with the shapes or the variables of a formula. -/
def message : TypingError → String
  | identifier n => s!"unknown identifier '{n}'"
  | addition a b => s!"cannot add shapes {a.text} and {b.text}"
  | decisionProduct => "product of two expressions containing decision variables"
  | multiplication a b => s!"cannot multiply shapes {a.text} and {b.text}"
  | elementwise a b => s!"cannot multiply shapes {a.text} and {b.text} element-wise"
  | notNumber i f => s!"argument {i} of {f}() must be a number"
  | notInteger i f => s!"argument {i} of {f}() must be an integer"
  | misplacedObjective f => s!"{f}() can only appear as an objective"
  | weibullDims d => s!"weib() dims must be 1 or 2, got {d}"
  | weibullLength => "weib() needs a positive range"
  | weibullRange s => s!"weib() range must be a data vector, got shape {s.text}"
  | weibullTooLong n m => s!"weib() range {n} is longer than {m}"
  | weibullFactor i s => s!"argument {i} of weib() must be a 1x1 data value, got shape {s.text}"
  | diagonal s => s!"diag() needs a vector or a square matrix, got {s.text}"
  | axis a => s!"invalid axis {a} for sum()"
  | decisionPower => "pow() of an expression containing decision variables"
  | decisionInverse => "minv() of an expression containing decision variables"
  | inverseShape s => s!"minv() needs a square matrix, got {s.text}"
  | relation a b => s!"mismatching shapes {a.text} and {b.text} in relation"
  | objective s => s!"objective must be a scalar, got shape {s.text}"

end TypingError

/-- Lifetime distributions that do not exist.  Numbers are given as messages write them. -/
inductive WeibullError where
  | parameters (scale shape : String)
  | length
  | tooLong (scale : String) (n limit : Nat)
  | vanishes (scale shape : String) (n : Nat)
  | dims (dims : Nat)
deriving DecidableEq, Repr

namespace WeibullError

/-- Why a lifetime distribution does not exist. -/
def message : WeibullError → String
  | parameters a b => s!"weib: scale and shape must be finite and positive, got {a} and {b}"
  | length => "weib: range must be positive"
  | tooLong a n m => s!"weib: range of scale {a} and length {n} exceeds {m}"
  | vanishes a b n => s!"weib({a},{b},{n}): distribution is zero after rounding"
  | dims d => s!"weib: dims must be 1 or 2, got {d}"

end WeibullError

/-- Formulas that cannot be read, typed or evaluated. -/
inductive ExpressionError where
  | empty
  | expected (what : Expectation) (offset : Nat) (text : String)
  | identifier (name text : String)
  | ambiguous (name : String) (count : Nat) (key : ProblemKey) (text : String)
  | typing (text : String) (cause : TypingError)
  | weibull (cause : WeibullError)
  | array (cause : ArrayError)
  | arrayIn (text : String) (cause : ArrayError)
  | notData
  | objectiveShape (problem : String) (shape : Shape)
  | notComparison (text : String)
  | mixedObjectives (text : String)
  | notObjective (text : String)
deriving DecidableEq, Repr

namespace ExpressionError

/-- What is wrong with a formula, with the text it stands in. -/
def message : ExpressionError → String
  | empty => "Empty expression"
  | expected w n t => s!"{w.message} at offset {n} in '{t}'"
  | identifier n t => s!"Unknown identifier '{n}' in '{t}'"
  | ambiguous n c k t =>
      s!"Ambiguous binding: '{n}' has {c} bindings in sub-problem {k.display} for '{t}'"
  | typing t e => s!"'{t}': {e.message}"
  | weibull e => e.message
  | array e => e.message
  | arrayIn t e => s!"'{t}': {e.message}"
  | notData => "Expected an expression without decision variables"
  | objectiveShape p s => s!"Objective of '{p}' has shape {s.text}"
  | notComparison t => s!"'{t}' is not a comparison"
  | mixedObjectives t => s!"'{t}': objectives mix Minimize and Maximize"
  | notObjective t => s!"'{t}' is not a Minimize or Maximize objective"

end ExpressionError

/-- Requests that stored tables refuse. -/
inductive StorageError where
  | coordinatesDiffer (table : String) (coords : List String)
  | noCoordinate (table dim : String)
  | rowLength (row coords : List String) (table : String)
  | rowExists (row : List String) (table : String)
deriving DecidableEq, Repr

namespace StorageError

/-- Why the store refuses an access. -/
def message : StorageError → String
  | coordinatesDiffer t cs => s!"Table '{t}' exists with coordinates {quotedList cs}"
  | noCoordinate t d => s!"Table '{t}' has no coordinate '{d}'"
  | rowLength r cs t => s!"Row {quotedList r} does not match coordinates {quotedList cs} of '{t}'"
  | rowExists r t => s!"Row {quotedList r} already exists in '{t}'"

end StorageError

/-- A cause of any phase. -/
inductive ModelError where
  | configuration (cause : ConfigurationError)
  | conceptual (cause : ConceptualError)
  | missing (cause : MissingDataError)
  | expression (cause : ExpressionError)
  | storage (cause : StorageError)
  /-- A file that cannot be read or written. -/
  | io (context : String)
  /-- A text that is not the configuration document it should be. -/
  | yaml
  /-- A text that is not the stored document it should be. -/
  | json
  /-- Something that an outside component reports in its own words. -/
  | reported (kind : ErrorKind) (detail : String)
deriving DecidableEq, Repr

namespace ModelError

/-- The category of the cause. -/
def kind : ModelError → ErrorKind
  | configuration _ | yaml => .configuration
  | conceptual _ => .conceptualModel
  | missing _ => .missingData
  | expression _ => .expression
  | storage _ | io _ | json => .storage
  | reported k _ => k

/-- The words that open a message of a category. -/
def opening : ErrorKind → String
  | .configuration => "configuration error: "
  | .conceptualModel => "conceptual model error: "
  | .missingData => "missing data: "
  | .expression => "expression error: "
  | .solver => "solver error: "
  | .storage => "storage error: "

/-- The message with its category in front; faults of the document formats carry no details. -/
def message : ModelError → String
  | configuration e => opening .configuration ++ e.message
  | conceptual e => opening .conceptualModel ++ e.message
  | missing e => opening .missingData ++ e.message
  | expression e => opening .expression ++ e.message
  | storage e => opening .storage ++ e.message
  | io context => "IO error: " ++ context
  | yaml => "invalid YAML"
  | json => "invalid JSON"
  | reported k detail => opening k ++ detail

end ModelError

end CoupledModels
