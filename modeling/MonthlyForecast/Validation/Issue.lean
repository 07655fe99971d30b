/-! Findings of graph validation, and the verdict that they add up to. -/
namespace MonthlyForecast

inductive IssueType where
  | missingMetric
  | duplicateNode
  | danglingEdge
  | cycle
  | operatorInputMismatch
  | inputArity
  | orphanedSeed
  | disconnected
deriving DecidableEq

namespace IssueType

def all : List IssueType :=
  [missingMetric, duplicateNode, danglingEdge, cycle, operatorInputMismatch, inputArity,
    orphanedSeed, disconnected]

def name : IssueType → String
  | missingMetric => "MissingMetric"
  | duplicateNode => "DuplicateNode"
  | danglingEdge => "DanglingEdge"
  | cycle => "Cycle"
  | operatorInputMismatch => "OperatorInputMismatch"
  | inputArity => "InputArity"
  | orphanedSeed => "OrphanedSeed"
  | disconnected => "Disconnected"

end IssueType

inductive Severity where
  | error
  | warning
deriving DecidableEq

namespace Severity

def all : List Severity := [error, warning]

def name : Severity → String
  | error => "Error"
  | warning => "Warning"

end Severity

structure Issue where
  /-- The node or edge concerned, if there is one. -/
  nodeId : Option String
  type : IssueType
  severity : Severity
  message : String
deriving DecidableEq

namespace Issue

def error (nodeId : Option String) (type : IssueType) (message : String) : Issue :=
  ⟨nodeId, type, .error, message⟩

def warning (nodeId : Option String) (type : IssueType) (message : String) : Issue :=
  ⟨nodeId, type, .warning, message⟩

end Issue

/-- The verdict on a graph: the messages of errors and of warnings, in order. -/
structure Verdict where
  isValid : Bool
  errors : List String
  warnings : List String
deriving DecidableEq

def Verdict.ofIssues (issues : List Issue) : Verdict :=
  let errors := (issues.filter (·.severity == .error)).map (·.message)
  let warnings := (issues.filter (·.severity == .warning)).map (·.message)
  ⟨errors.isEmpty, errors, warnings⟩

/-- Some error of the given type was found. -/
def errorFound (issues : List Issue) (type : IssueType) : Bool :=
  issues.any fun issue => issue.severity == .error && issue.type == type

end MonthlyForecast
