import MonthlyForecast.Json.NumberFormat
import MonthlyForecast.Json.Text

/-! JSON values as they were written: numerals and string tokens are kept, members
keep their order and may repeat a key. What a token denotes is decided where it is
used, so a value that nobody looks at may hold a number too large for a double, a
string without a text, and nesting of any depth. -/
namespace MonthlyForecast

inductive Json where
  | null
  | boolean (value : Bool)
  | number (value : Json.Numeral)
  | string (pieces : List Json.Piece)
  | array (items : List Json)
  | object (members : List (List Json.Piece × Json))

namespace Json

def text (value : String) : Json :=
  .string (Piece.ofString value)

def integer (value : Int) : Json :=
  .number (.ofInt value)

/-- A double as a number; null if it is not finite. -/
def float [NumberFormat] (value : Float) : Json :=
  if value.isFinite then .number (NumberFormat.write value) else .null

/-- An object with the given keys in order. -/
def record (fields : List (String × Json)) : Json :=
  .object (fields.map fun (key, value) => (Piece.ofString key, value))

/-- An optional value, null if absent. -/
def option {α : Type} (encode : α → Json) : Option α → Json
  | none => .null
  | some value => encode value

def list {α : Type} (encode : α → Json) (values : List α) : Json :=
  .array (values.map encode)

section

variable [NumberFormat]

mutual

/-- The value nests at most `depth` arrays and objects, every number can be taken in and
every string is a text. -/
def isPlain (depth : Nat) : Json → Bool
  | .null => true
  | .boolean _ => true
  | .number value => value.isDenotable
  | .string pieces => (Piece.toChars? pieces).isSome
  | .array items => match depth with
    | 0 => false
    | depth + 1 => arePlainItems depth items
  | .object members => match depth with
    | 0 => false
    | depth + 1 => arePlainMembers depth members

def arePlainItems (depth : Nat) : List Json → Bool
  | [] => true
  | item :: items => isPlain depth item && arePlainItems depth items

def arePlainMembers (depth : Nat) : List (List Piece × Json) → Bool
  | [] => true
  | (key, value) :: members =>
    (Piece.toChars? key).isSome && isPlain depth value && arePlainMembers depth members

end

end

end Json
end MonthlyForecast
