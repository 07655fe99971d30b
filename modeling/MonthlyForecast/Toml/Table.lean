/-! Values and tables of a TOML document, and the rules on where a table may be
written to. A table is declared once: by its own header, by dotted keys, or inline. A
table that only stands in the path of a header may still get a header of its own.
Dotted keys extend only tables that dotted keys made, and nothing extends an inline
table or a plain array. -/
namespace MonthlyForecast

/-- How a table came to be. -/
inductive TableForm where
  /-- Declared by a header. -/
  | header
  /-- Only passed through by the path of a header. -/
  | implied
  /-- Made by dotted keys. -/
  | dotted
  /-- Written as a value. -/
  | inlined
deriving DecidableEq

inductive Toml where
  | string (value : String)
  | boolean (value : Bool)
  /-- A number or a date, as it was written. -/
  | scalar (literal : List Char)
  | array (items : List Toml)
  | table (form : TableForm) (entries : List (String × Toml))
  /-- Tables under one header in double brackets; the latest can still be written to. -/
  | tables (earlier : List Toml) (latest : List (String × Toml))

namespace Toml

abbrev Entries := List (String × Toml)

/-- Writes an entry in place of one with the same key, or behind the others. -/
def put (entries : Entries) (key : String) (value : Toml) : Entries :=
  if entries.any (·.1 == key) then
    entries.map fun entry => if entry.1 == key then (key, value) else entry
  else entries ++ [(key, value)]

/-- Changes the table that the path of a header leads to, making tables on the way. -/
def atPath (change : Entries → Option Entries) : List String → Entries → Option Entries
  | [], entries => change entries
  | key :: path, entries =>
    match entries.lookup key with
    | none => (atPath change path []).map fun inner => put entries key (.table .implied inner)
    | some (.table .inlined _) => none
    | some (.table form inner) =>
      (atPath change path inner).map fun inner => put entries key (.table form inner)
    | some (.tables earlier latest) =>
      (atPath change path latest).map fun latest => put entries key (.tables earlier latest)
    | some _ => none

/-- Declares a table by its header. -/
def declareTable (path : List String) (key : String) (root : Entries) : Option Entries :=
  atPath (fun entries =>
    match entries.lookup key with
    | none => some (put entries key (.table .header []))
    | some (.table .implied inner) => some (put entries key (.table .header inner))
    | some _ => none) path root

/-- Begins a further table under a header in double brackets. -/
def declareRow (path : List String) (key : String) (root : Entries) : Option Entries :=
  atPath (fun entries =>
    match entries.lookup key with
    | none => some (put entries key (.tables [] []))
    | some (.tables earlier latest) =>
      some (put entries key (.tables (earlier ++ [.table .header latest]) []))
    | some _ => none) path root

/-- Writes a value under dotted keys. `form` is how the table at hand came to be, and
`nested` says that a dotted key led to it. -/
def assign (value : Toml) : List String → TableForm → Bool → Entries → Option Entries
  | [], _, _, _ => none
  | [key], form, nested, entries =>
    if (form == .dotted) != nested || (entries.lookup key).isSome then none
    else some (put entries key value)
  | key :: keys, _, _, entries =>
    match entries.lookup key with
    | none => (assign value keys .dotted true []).map fun inner =>
      put entries key (.table .dotted inner)
    | some (.table .header _) => none
    | some (.table .inlined _) => none
    | some (.table form inner) => (assign value keys form true inner).map fun inner =>
      put entries key (.table form inner)
    | some (.tables earlier latest) => (assign value keys .header true latest).map fun latest =>
      put entries key (.tables earlier latest)
    | some _ => none

end Toml
end MonthlyForecast
