import MonthlyForecast.Calendar.DateText
import MonthlyForecast.Decimal.Fixed
import MonthlyForecast.Evaluation.Ledger
import MonthlyForecast.Text.Replace
import MonthlyForecast.Tree.Basic

/-! The audit trace of a metric for one month: how its value was reached, node by
node. The tree is walked from its root. The first occurrence of a node is written in
full, with its inputs below it; later ones only refer to the level of the first. The
walk gives entries, and each entry is written as one line. -/
namespace MonthlyForecast

/-- What an entry says about a node. -/
inductive TraceDetail where
  /-- Written in full at the given level before. -/
  | reference (level : Nat)
  | data (variableId : String) (offsetMonths : Int)
  | constant (value : Float)
  | seed (sourceMetricId : String)
  | operator (operation : Operation) (inputs : List (String × Cell))
  /-- A metric that is not opened here. -/
  | metric (label : String)
  /-- The traced metric, whose value is that of its input. -/
  | calculated (label : String)
  /-- The traced metric, whose value is its fallback. -/
  | fallback (label : String)

structure TraceEntry where
  /-- One level below that of the entry that opened it; the root has level one. -/
  level : Nat
  /-- For each step from the root whether a sibling follows. -/
  rails : List Bool
  node : String
  value : Cell
  detail : TraceDetail

namespace Cell

/-- A value in brackets with three places. -/
def traceText : Cell → String
  | pending => "[?]"
  | ready none => "[null]"
  | ready (some value) => "[" ++ Decimal.fixed 3 value ++ "]"

end Cell

namespace TraceEntry

/-- The mark of an input, which tells the last one from the others. -/
def connector (follows : Bool) : String :=
  if follows then "|--" else "`--"

/-- What the marks of an entry become before those below it: a bar goes on below the mark
of an input that others follow, and nothing below that of the last one. -/
def childStem (marks : String) : String :=
  Text.replaceAll "|--" "|  " (Text.replaceAll "`--" "   " marks)

/-- The marks before an entry, from those of the entry above it. -/
def marks (rails : List Bool) : String :=
  rails.foldl (fun marks follows => childStem marks ++ connector follows) ""

/-- A shift with its sign; nothing for no shift. -/
def offsetText (months : Int) : String :=
  if months = 0 then ""
  else ", offset " ++ (if 0 < months then "+" else "") ++ toString months

def detailText : TraceDetail → String
  | .reference level => s!" -> (Ref to L{level})"
  | .data variableId months => " -> Data(" ++ variableId ++ offsetText months ++ ")"
  | .constant value => " -> Const(" ++ Decimal.fixed 3 value ++ ")"
  | .seed sourceMetricId => " -> " ++ sourceMetricId ++ ".prev()"
  | .operator operation inputs =>
    " = " ++ (" " ++ operation.symbol ++ " ").intercalate
      (inputs.map fun (node, value) => node ++ value.traceText)
  | .metric label => " -> Metric(" ++ label ++ ")"
  | .calculated label => " = " ++ label
  | .fallback label => " = " ++ label ++ " [FALLBACK]"

def headText (entry : TraceEntry) : String :=
  match entry.detail with
  | .reference _ => entry.node
  | _ => s!"[L{entry.level}] " ++ entry.node ++ entry.value.traceText

def toLine (entry : TraceEntry) : String :=
  marks entry.rails ++ entry.headText ++ detailText entry.detail ++ "\n"

end TraceEntry

/-- A walk: the nodes written in full so far with their levels, and the entries. -/
structure TraceWalk where
  written : List (NodeIndex × Nat)
  entries : List TraceEntry

namespace MetricTree

/-- What a slot shows, and which inputs are opened below it. -/
def traceDetail (graph : Graph) (ledger : Ledger) (tree : MetricTree) (month place : Nat)
    (slot : TreeSlot) : TraceDetail × List Nat :=
  match graph.kind? slot.node with
  | some (.data _ variableId offset) => (.data variableId offset.toInt, [])
  | some (.constant _ value) => (.constant value, [])
  | some (.seed sourceMetricId) => (.seed sourceMetricId, [])
  | some (.operator operation _) =>
    let inputs := slot.inputs.filterMap fun input => tree.slots[input]?.map fun slot =>
      (graph.idOf slot.node, ledger.get slot.node month)
    (.operator operation inputs, slot.inputs)
  | some (.metric attributes) =>
    if place ≠ tree.rootPlace then (.metric attributes.label, [])
    else if attributes.useCalculated ∧ slot.inputs ≠ [] then
      (.calculated attributes.label, slot.inputs)
    else (.fallback attributes.label, [])
  | none => (.metric "", [])

/-- Walks a slot and what it opens. Every entry on the way down is a node written for
the first time, so the depth is at most the number of slots. -/
def traceFrom (graph : Graph) (ledger : Ledger) (tree : MetricTree) (month : Nat) :
    Nat → Nat → List Bool → Nat → TraceWalk → TraceWalk
  | 0, _, _, _, walk => walk
  | depth + 1, level, rails, place, walk =>
    match tree.slots[place]? with
    | none => walk
    | some slot =>
      let node := graph.idOf slot.node
      let value := ledger.get slot.node month
      match walk.written.lookup slot.node with
      | some first =>
        { walk with entries := walk.entries ++ [⟨level, rails, node, value, .reference first⟩] }
      | none =>
        let (detail, opened) := traceDetail graph ledger tree month place slot
        let walk : TraceWalk :=
          ⟨(slot.node, level) :: walk.written,
            walk.entries ++ [⟨level, rails, node, value, detail⟩]⟩
        opened.zipIdx.foldl
          (fun walk (input, position) =>
            let follows := decide (position + 1 < opened.length)
            traceFrom graph ledger tree month depth (level + 1) (rails ++ [follows]) input walk)
          walk

/-- The entries of the trace of a tree for one month. -/
def traceEntries (graph : Graph) (ledger : Ledger) (tree : MetricTree) (month : Nat) :
    List TraceEntry :=
  (traceFrom graph ledger tree month (tree.slots.length + 1) 1 [] tree.rootPlace ⟨[], []⟩).entries

/-- The written trace of a tree for the month at a place of the ledger. -/
def trace (graph : Graph) (ledger : Ledger) (tree : MetricTree) (month : Nat) : String :=
  match ledger.months[month]? with
  | none => s!"Error: month index {month} is outside the forecast range\n"
  | some date =>
    let head := "AUDIT TRACE for metric '" ++ graph.label tree.root ++ "' @ " ++
      date.monthText ++ ":\n"
    let rule := "--------------------------------------------------\n"
    head ++ rule ++ String.join ((traceEntries graph ledger tree month).map (·.toLine))

end MetricTree
end MonthlyForecast
