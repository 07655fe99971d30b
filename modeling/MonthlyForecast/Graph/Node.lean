/-! Nodes and edges of a forecast graph. A node is a variable's data, a constant, an
operator over other nodes, a metric, or a seed that reads a metric's previous month.
An edge leads from an input to the node that uses it. -/
namespace MonthlyForecast

inductive Operation where
  | add
  | subtract
  | multiply
  | divide
  | power
deriving DecidableEq

namespace Operation

def all : List Operation := [add, subtract, multiply, divide, power]

def symbol : Operation → String
  | add => "+"
  | subtract => "-"
  | multiply => "*"
  | divide => "/"
  | power => "^"

end Operation

inductive NodeType where
  | data
  | constant
  | operator
  | metric
  | seed
deriving DecidableEq

namespace NodeType

def all : List NodeType := [data, constant, operator, metric, seed]

def name : NodeType → String
  | data => "DATA"
  | constant => "CONSTANT"
  | operator => "OPERATOR"
  | metric => "METRIC"
  | seed => "SEED"

end NodeType

structure Metric where
  label : String
  budgetVariableId : Option String
  historicalVariableId : Option String
  /-- The forecast is the value of the metric's input, if it has one. -/
  useCalculated : Bool
deriving DecidableEq

inductive NodeKind where
  /-- A variable's value in the month that lies `offsetMonths` later. -/
  | data (name variableId : String) (offsetMonths : Int32)
  | constant (name : String) (value : Float)
  /-- The inputs are named in the order in which they are combined. -/
  | operator (operation : Operation) (inputOrder : List String)
  | metric (attributes : Metric)
  /-- The source metric's value in the previous month. -/
  | seed (sourceMetricId : String)
deriving DecidableEq

namespace NodeKind

def type : NodeKind → NodeType
  | data .. => .data
  | constant .. => .constant
  | operator .. => .operator
  | metric .. => .metric
  | seed .. => .seed

/-- Leaves take no incoming edges. -/
def isLeaf : NodeKind → Bool
  | data .. | constant .. | seed .. => true
  | operator .. | metric .. => false

def metric? : NodeKind → Option Metric
  | metric attributes => some attributes
  | _ => none

/-- A short name for display. -/
def label : NodeKind → String
  | data name _ _ => name
  | constant name _ => name
  | operator operation _ => operation.symbol
  | metric attributes => attributes.label
  | seed sourceMetricId => "seed(" ++ sourceMetricId ++ ")"

end NodeKind

structure Position where
  x : Float
  y : Float
deriving DecidableEq

structure Node where
  id : String
  kind : NodeKind
  position : Option Position
deriving DecidableEq

structure Edge where
  id : String
  sourceId : String
  targetId : String
deriving DecidableEq

end MonthlyForecast
