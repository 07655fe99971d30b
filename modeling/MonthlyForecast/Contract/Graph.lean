import MonthlyForecast.Contract.Fields
import MonthlyForecast.Graph.Node
import MonthlyForecast.Tree.Basic

/-! The JSON form of nodes, edges and trees. A node is an object whose `kind` says
how its `attributes` are read. All fields of a node but its id and position are taken
in as plain values before the kind is known, so even an unknown field must hold
denotable values and must not nest too deeply. -/
namespace MonthlyForecast

/-- How deeply a document may nest where its values are taken in. -/
def nestingLimit : Nat := 127

namespace NodeKind

/-- The attributes of a kind, given as an object or as an array. -/
def ofAttributes? [Json.NumberFormat] (type : NodeType) (attributes : Json) : Option NodeKind :=
  match type with
  | .data => do
    let fields ← Fields.ofJson? ["name", "variableId", "offsetMonths"] attributes
    some (.data (← fields.required "name" Json.toText?)
      (← fields.required "variableId" Json.toText?)
      (← fields.withDefault "offsetMonths" Json.toInt32? 0))
  | .constant => do
    let fields ← Fields.ofJson? ["name", "value"] attributes
    some (.constant (← fields.required "name" Json.toText?)
      (← fields.required "value" Json.toFloat?))
  | .operator => do
    let fields ← Fields.ofJson? ["op", "inputOrder"] attributes
    some (.operator
      (← fields.required "op" (Json.toTaggedChoice? Operation.all Operation.symbol))
      (← fields.withDefault "inputOrder" (Json.toList? Json.toText?) []))
  | .metric => do
    let fields ← Fields.ofJson?
      ["label", "budgetVariableId", "historicalVariableId", "useCalculated"] attributes
    some (.metric
      { label := ← fields.required "label" Json.toText?
        budgetVariableId :=
          ← fields.withDefault "budgetVariableId" (Json.toOption? Json.toText?) none
        historicalVariableId :=
          ← fields.withDefault "historicalVariableId" (Json.toOption? Json.toText?) none
        useCalculated := ← fields.withDefault "useCalculated" Json.toBoolean? true })
  | .seed => do
    let fields ← Fields.ofJson? ["sourceMetricId"] attributes
    some (.seed (← fields.required "sourceMetricId" Json.toText?))

def attributesJson (float : Float → Json) : NodeKind → Json
  | .data name variableId offsetMonths => .record
    [("name", .text name), ("variableId", .text variableId),
      ("offsetMonths", .integer offsetMonths.toInt)]
  | .constant name value => .record [("name", .text name), ("value", float value)]
  | .operator operation inputOrder => .record
    [("op", .text operation.symbol), ("inputOrder", .list .text inputOrder)]
  | .metric attributes => .record
    [("label", .text attributes.label),
      ("budgetVariableId", .option .text attributes.budgetVariableId),
      ("historicalVariableId", .option .text attributes.historicalVariableId),
      ("useCalculated", .boolean attributes.useCalculated)]
  | .seed sourceMetricId => .record [("sourceMetricId", .text sourceMetricId)]

end NodeKind

namespace Position

def ofJson? [Json.NumberFormat] (value : Json) : Option Position := do
  let fields ← Fields.ofJson? ["x", "y"] value
  some ⟨← fields.required "x" Json.toFloat?, ← fields.required "y" Json.toFloat?⟩

def toJson (float : Float → Json) (position : Position) : Json :=
  .record [("x", float position.x), ("y", float position.y)]

end Position

namespace Node

/-- The member is taken in as a plain value. -/
def isTakenIn (key : List Json.Piece) : Bool :=
  match Json.Piece.toString? key with
  | some key => key != "id" && key != "position"
  | none => true

/-- Reads a node that stands at a depth of its document; the document itself has
depth one. -/
def ofJson? [Json.NumberFormat] (depth : Nat) : Json → Option Node
  | .object members => do
    let takenIn := members.filter fun (key, _) => isTakenIn key
    if takenIn.all fun (_, value) => value.isPlain (nestingLimit - depth) then
      let fields ← Fields.ofMembers? ["id", "kind", "attributes", "position"] members
      let id ← fields.required "id" Json.toText?
      let type ← fields.required "kind" (Json.toTaggedChoice? NodeType.all NodeType.name)
      let kind ← fields.required "attributes" (NodeKind.ofAttributes? type)
      let position ← fields.withDefault "position" (Json.toOption? Position.ofJson?) none
      some ⟨id, kind, position⟩
    else none
  | _ => none

def toJson (float : Float → Json) (node : Node) : Json :=
  .record ([("id", .text node.id), ("kind", .text node.kind.type.name),
    ("attributes", node.kind.attributesJson float)] ++
    node.position.toList.map fun position => ("position", position.toJson float))

end Node

namespace Edge

def ofJson? (value : Json) : Option Edge := do
  let fields ← Fields.ofJson? ["id", "sourceNodeId", "targetNodeId"] value
  some ⟨← fields.required "id" Json.toText?, ← fields.required "sourceNodeId" Json.toText?,
    ← fields.required "targetNodeId" Json.toText?⟩

def toJson (edge : Edge) : Json :=
  .record [("id", .text edge.id), ("sourceNodeId", .text edge.sourceId),
    ("targetNodeId", .text edge.targetId)]

end Edge

namespace TreeSlot

def toJson (slot : TreeSlot) : Json :=
  .record [("node", .integer slot.node),
    ("children", .list (fun place : Nat => .integer place) slot.inputs)]

end TreeSlot

namespace MetricTree

/-- The slots of a tree as they are, by index. -/
def toJson (tree : MetricTree) : Json :=
  .record [("root_metric", .integer tree.root), ("nodes", .list TreeSlot.toJson tree.slots)]

end MetricTree

namespace NestedTree

mutual

def toJson : NestedTree → Json
  | .node id type inputOrder children => .record
    ([("nodeId", .text id), ("nodeType", .text type.name),
      ("children", .array (childrenJson children))] ++
      inputOrder.toList.map fun inputs => ("inputOrder", .list .text inputs))

def childrenJson : List NestedTree → List Json
  | [] => []
  | child :: children => toJson child :: childrenJson children

end

end NestedTree
end MonthlyForecast
