import MonthlyForecast.Calendar.DateText
import MonthlyForecast.Json.Significand
import MonthlyForecast.Json.Value

/-! Decoding JSON values into typed ones. A structure is an object of named fields or
an array of its fields in declaration order. Unknown fields of an object are ignored,
but a known field must not be given twice. A choice among names is the name itself or
an object with that name as its only key and an empty value. Doubles are read in the
number format that is given, by default by way of a significand of 64 bits. -/
namespace MonthlyForecast

namespace Json

def toText? : Json → Option String
  | .string pieces => Piece.toString? pieces
  | _ => none

def toBoolean? : Json → Option Bool
  | .boolean value => some value
  | _ => none

def toFloat? [NumberFormat] : Json → Option Float
  | .number value => value.toFloat?
  | _ => none

/-- An integer literal that fits a signed word of 32 bits. -/
def toInt32? : Json → Option Int32
  | .number value => do
    let integer ← value.toInt?
    if Int32.minValue.toInt ≤ integer ∧ integer ≤ Int32.maxValue.toInt then
      some (Int32.ofInt integer)
    else none
  | _ => none

def toDate? (value : Json) : Option Date :=
  value.toText?.bind Date.ofText?

def toTimestamp? (value : Json) : Option Timestamp :=
  value.toText?.bind Timestamp.ofText?

def toList? {α : Type} (decode : Json → Option α) : Json → Option (List α)
  | .array items => items.mapM decode
  | _ => none

/-- Null, or a value. -/
def toOption? {α : Type} (decode : Json → Option α) : Json → Option (Option α)
  | .null => some none
  | value => (decode value).map some

/-- A choice whose empty value is null. -/
def toChoice? {α : Type} (all : List α) (name : α → String) : Json → Option α
  | .string pieces => all.find? fun choice => Piece.toString? pieces == some (name choice)
  | .object [(key, .null)] => all.find? fun choice => Piece.toString? key == some (name choice)
  | _ => none

/-- A choice whose empty value is null or an empty object. -/
def toTaggedChoice? {α : Type} (all : List α) (name : α → String) : Json → Option α
  | .object [(key, .object [])] => toChoice? all name (.string key)
  | value => toChoice? all name value

end Json

/-- The known fields of a structure that were given. -/
structure Fields where
  /-- Given as an array. -/
  positional : Bool
  present : List (String × Json)

namespace Fields

/-- The known fields of an object. Its keys must be texts. -/
def ofMembers? (names : List String) (members : List (List Json.Piece × Json)) :
    Option Fields := do
  let keyed ← members.mapM fun (key, value) =>
    (Json.Piece.toString? key).map fun key => (key, value)
  let known := keyed.filter fun (key, _) => names.contains key
  if (known.map (·.1)).Nodup then some ⟨false, known⟩ else none

def ofJson? (names : List String) : Json → Option Fields
  | .object members => ofMembers? names members
  | .array items => if items.length ≤ names.length then some ⟨true, names.zip items⟩ else none
  | _ => none

/-- A field that must be given. -/
def required {α : Type} (fields : Fields) (name : String) (decode : Json → Option α) : Option α :=
  (fields.present.lookup name).bind decode

/-- A field that takes a default if it is not given. -/
def withDefault {α : Type} (fields : Fields) (name : String) (decode : Json → Option α)
    (standard : α) : Option α :=
  match fields.present.lookup name with
  | none => some standard
  | some value => decode value

/-- A field that may be null, or left out of an object. -/
def nullable {α : Type} (fields : Fields) (name : String) (decode : Json → Option α) :
    Option (Option α) :=
  match fields.present.lookup name with
  | none => if fields.positional then none else some none
  | some value => value.toOption? decode

end Fields
end MonthlyForecast
