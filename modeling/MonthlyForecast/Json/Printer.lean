import MonthlyForecast.Json.Value

/-! Writing a JSON value: compact, members in order, nothing but what the value
holds. -/
namespace MonthlyForecast.Json

mutual

def render : Json → List Char
  | .null => ['n', 'u', 'l', 'l']
  | .boolean true => ['t', 'r', 'u', 'e']
  | .boolean false => ['f', 'a', 'l', 's', 'e']
  | .number value => value.render
  | .string pieces => Piece.renderAll pieces
  | .array [] => ['[', ']']
  | .array (item :: items) => '[' :: render item ++ renderItems items
  | .object [] => ['\x7b', '\x7d']
  | .object ((key, value) :: members) =>
    '\x7b' :: Piece.renderAll key ++ ':' :: render value ++ renderMembers members

/-- The items after the first, each behind a comma, and the closing bracket. -/
def renderItems : List Json → List Char
  | [] => [']']
  | item :: items => ',' :: render item ++ renderItems items

/-- The members after the first, each behind a comma, and the closing brace. -/
def renderMembers : List (List Piece × Json) → List Char
  | [] => ['\x7d']
  | (key, value) :: members =>
    ',' :: Piece.renderAll key ++ ':' :: render value ++ renderMembers members

end

def toText (value : Json) : String :=
  String.ofList value.render

end MonthlyForecast.Json
