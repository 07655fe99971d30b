import MonthlyForecast.Text.Digits

/-! Strings of a JSON text, between their quotes. A string token is a list of
pieces: characters, and surrogate code units that were written as escapes. Two
escapes that form a pair denote one character; a token with a surrogate left over
is well formed and denotes no text. Control characters must be escaped. -/
namespace MonthlyForecast.Json

inductive Piece where
  | char (c : Char)
  /-- A code unit from 0xD800 to 0xDFFF. -/
  | surrogate (unit : Nat)
deriving DecidableEq

namespace Piece

/-- The character of a surrogate pair. -/
def pairedChar (lead trail : Nat) : Char :=
  Char.ofNat (0x10000 + (lead - 0xD800) * 0x400 + (trail - 0xDC00))

def isLead (unit : Nat) : Bool := 0xD800 ≤ unit && unit ≤ 0xDBFF

def isTrail (unit : Nat) : Bool := 0xDC00 ≤ unit && unit ≤ 0xDFFF

/-- The characters that the pieces denote; none if a surrogate has no partner. -/
def toChars? : List Piece → Option (List Char)
  | [] => some []
  | .char c :: rest => (toChars? rest).map (c :: ·)
  | .surrogate lead :: .surrogate trail :: rest =>
    if isLead lead && isTrail trail then (toChars? rest).map (pairedChar lead trail :: ·) else none
  | .surrogate _ :: _ => none

def ofString (text : String) : List Piece :=
  text.toList.map .char

def toString? (pieces : List Piece) : Option String :=
  (toChars? pieces).map String.ofList

theorem toString?_ofString (text : String) : toString? (ofString text) = some text := by
  have chars (list : List Char) : toChars? (list.map .char) = some list := by
    induction list with
    | nil => rfl
    | cons c rest ih => simp [toChars?, ih]
  simp [toString?, ofString, chars]

/-- The value of a hexadecimal digit. -/
def hexValue? (c : Char) : Option Nat :=
  if c.isDigit then some (c.toNat - 48)
  else if 'a' ≤ c ∧ c ≤ 'f' then some (c.toNat - 87)
  else if 'A' ≤ c ∧ c ≤ 'F' then some (c.toNat - 55)
  else none

/-- The code unit of four hexadecimal digits. -/
def codeUnit? (a b c d : Char) : Option Nat := do
  some (0x1000 * (← hexValue? a) + 0x100 * (← hexValue? b) +
    0x10 * (← hexValue? c) + (← hexValue? d))

def ofCodeUnit (unit : Nat) : Piece :=
  if 0xD800 ≤ unit ∧ unit ≤ 0xDFFF then .surrogate unit else .char (Char.ofNat unit)

/-- The character that a one-letter escape stands for. -/
def unescaped? (c : Char) : Option Char :=
  match c with
  | '"' => some '"'
  | '\\' => some '\\'
  | '/' => some '/'
  | 'b' => some '\x08'
  | 'f' => some '\x0c'
  | 'n' => some '\n'
  | 'r' => some '\r'
  | 't' => some '\t'
  | _ => none

/-- Reads pieces up to and including the closing quote. -/
def readAll : List Char → Option (List Piece × List Char)
  | [] => none
  | '"' :: rest => some ([], rest)
  | '\\' :: 'u' :: a :: b :: c :: d :: rest => do
    let unit ← codeUnit? a b c d
    let (pieces, rest) ← readAll rest
    some (ofCodeUnit unit :: pieces, rest)
  | '\\' :: c :: rest => do
    let c ← unescaped? c
    let (pieces, rest) ← readAll rest
    some (.char c :: pieces, rest)
  | c :: rest =>
    if c = '\\' ∨ c.toNat < 0x20 then none
    else (readAll rest).map fun (pieces, rest) => (.char c :: pieces, rest)

/-- Four hexadecimal digits. -/
def hexDigits (unit : Nat) : List Char :=
  let run := Nat.toDigits 16 unit
  List.replicate (4 - run.length) '0' ++ run

/-- One character inside a string. Only quotes, backslashes and control characters
are escaped. -/
def escaped (c : Char) : List Char :=
  match c with
  | '"' => ['\\', '"']
  | '\\' => ['\\', '\\']
  | '\x08' => ['\\', 'b']
  | '\x0c' => ['\\', 'f']
  | '\n' => ['\\', 'n']
  | '\r' => ['\\', 'r']
  | '\t' => ['\\', 't']
  | c => if c.toNat < 0x20 then '\\' :: 'u' :: hexDigits c.toNat else [c]

def render : Piece → List Char
  | .char c => escaped c
  | .surrogate unit => '\\' :: 'u' :: hexDigits unit

/-- A string token with its quotes. -/
def renderAll (pieces : List Piece) : List Char :=
  '"' :: pieces.flatMap render ++ ['"']

end Piece
end MonthlyForecast.Json
