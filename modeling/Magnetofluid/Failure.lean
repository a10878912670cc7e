import Magnetofluid.Number

/-!
# What can go wrong

The causes for which an operation of the library ends without a result. The texts that belong to them are in
`Failure.Message`.
-/

namespace Magnetofluid

/-- The roles in which a function of position is asked for. -/
inductive FunctionRole
  | coefficient
  | source
  | electricField
  | initialCurrent
deriving DecidableEq, Repr

/-- The rules of the settings that a value can break. -/
inductive SettingRule
  | outputFrequency
  | cellCount
  | lengthX
  | lengthY
  | markerCount
  | markerValue
  | viscosity
  | resistivity
  | initialCase
  | sheetWidth
  | coalescence
  | integrator
  | scheme
  | timeStep
  | krylovMethod
  | krylovPreconditioner
  | backend
  | newtonPreconditioner
  | newtonDamping
  | missingGrid
deriving DecidableEq, Repr

/-- The ways in which the file system refuses an operation. -/
inductive FileRefusal
  /-- A file or directory on the way is missing. -/
  | missing
  /-- The target exists already. -/
  | exists
  /-- A file stands where a directory is needed. -/
  | notADirectory
  /-- A directory stands where a file is needed. -/
  | isADirectory
  /-- The name holds a character that names cannot hold. -/
  | badName
  /-- The name or a part of it is too long. -/
  | tooLong
deriving DecidableEq, Repr

/-- The cause of a failure. -/
inductive Failure (K : Type)
  /-- A grid without squares. -/
  | emptyGrid
  /-- Not one marker for each side of the rectangle. -/
  | markerCount (got : Nat)
  /-- Something else where a function of position is needed. -/
  | notAFunction (role : FunctionRole)
  /-- Sizes that do not fit together. -/
  | shape
  /-- An index outside its range. -/
  | index
  /-- A state vector of the wrong shape for blocks of size `n`. -/
  | stateShape (n : Int) (shape : List Nat)
  /-- A block that a state does not have. -/
  | unknownBlock
  | unknownBackend (name : String)
  /-- The distributed solvers are not part of this program. -/
  | backendUnavailable
  | unknownMethod (name : String)
  | unknownPreconditioner (name : String)
  | zeroDiagonal
  /-- A matrix that elimination finds singular. -/
  | singular
  /-- A solver that holds no matrix. -/
  | noMatrix
  | negativeTolerance
  /-- A minimal residual iteration that is not allowed a single step. -/
  | noRounds
  | notConverged (solver : String) (iterations : Nat) (reason : Int)
  /-- A Newton iteration without a system. -/
  | noSystem
  | newtonDiverged (iterations : Nat) (norm : K)
  | unknownNewtonPreconditioner (name : String)
  | stepNotPositive (dt : Number K)
  /-- A false truth value for the size of a step. -/
  | stepIsFalse
  /-- A residual evaluated before step and start are known. -/
  | noStep
  /-- A residual evaluated before the boundary current is known. -/
  | noCurrent
  | currentMismatch
  | amgReleased
  | unknownCase (name : String)
  | divisionByZero
  /-- A square beyond the range of the number system. -/
  | overflow
  /-- A remainder by zero. -/
  | moduloByZero
  /-- A setting that is not there; `key` is written as it is quoted. -/
  | missingKey (key : String)
  /-- A value of the wrong type. -/
  | wrongType
  /-- A text in the arithmetic of arrays. -/
  | textOperand
  /-- A value without the structure asked for. -/
  | wrongStructure
  /-- A text, as it is quoted, that is no real number. -/
  | badReal (quoted : String)
  /-- A text, as it is quoted, that is no integer. Its message shows the first two hundred characters of it. -/
  | badInteger (quoted : String)
  /-- A text that is not of the form of what it stands for. -/
  | unreadable
  /-- A word of a document that stands for no truth value. -/
  | unknownWord
  /-- An integer with more digits than are read or written. -/
  | tooManyDigits
  /-- An integer beyond the range of indices. -/
  | indexTooLarge
  | nanToInteger
  | infinityToInteger
  | integerTooLarge
  | rejected (rule : SettingRule)
  /-- A configuration text that cannot be read. -/
  | badDocument
  /-- A file that is no text where a text is needed. -/
  | notText
  /-- An output directory that holds something already. -/
  | outputNotEmpty
  | refused (why : FileRefusal)

/-- A setting that is looked at where it is used and not before: what it stands for, or the failure with which its use
ends. -/
abbrev Setting (K α : Type) := Except (Failure K) α

/-- The number as an element of the number system, if it is not an integer beyond its range. -/
def Number.usable {K : Type} [Scalar K] : Number K → Setting K K
  | .int i =>
    let x : K := Scalar.ofInt i
    if Scalar.eq (x - x) 0 then .ok x else .error .integerTooLarge
  | .real x => .ok x

end Magnetofluid
