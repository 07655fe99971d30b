import MonthlyForecast.Toml.Scalar
import MonthlyForecast.Toml.Table

/-! Reading a TOML document, version 1.1. A document is a sequence of lines: a key
with a value, the header of a table, or nothing, each with an optional comment.
Reading gives the entries of the root table. -/
namespace MonthlyForecast.Toml

/-- Not a control character, or a tab. -/
def isAllowed (c : Char) : Bool :=
  c == '\t' || (0x20 ≤ c.toNat && c.toNat != 0x7F)

def isGap (c : Char) : Bool := c == ' ' || c == '\t'

def skipGap (text : List Char) : List Char :=
  text.dropWhile isGap

/-- Takes the end of a line from the front of a text. -/
def takeNewline : List Char → Option (List Char)
  | '\n' :: rest => some rest
  | '\r' :: '\n' :: rest => some rest
  | _ => none

/-- Skips blanks and a comment up to the end of the line or of the text. -/
def endLine (text : List Char) : Option (List Char) :=
  let rest := match skipGap text with
    | '#' :: comment => comment.dropWhile isAllowed
    | rest => rest
  if rest.isEmpty then some [] else takeNewline rest

/-- Skips blanks, ends of lines and comments. Inside a comment the flag is set. -/
def skipFiller : Bool → List Char → List Char
  | _, [] => []
  | _, '\r' :: '\n' :: rest => skipFiller false rest
  | inside, c :: rest =>
    if c == '\n' then skipFiller false rest
    else if inside then if isAllowed c then skipFiller true rest else c :: rest
    else if c == '#' then skipFiller true rest
    else if isGap c then skipFiller false rest
    else c :: rest

/-- The character of a code point, if it is one. -/
def charOf? (code : Nat) : Option Char :=
  if code.isValidChar then some (Char.ofNat code) else none

/-- Takes a number of hexadecimal digits. -/
def takeCode (count : Nat) (text : List Char) : Option (Char × List Char) :=
  let run := text.take count
  if run.length = count ∧ run.all isHexDigit then
    (charOf? (valueInBase 16 run)).map fun c => (c, text.drop count)
  else none

/-- An escape, after its backslash. -/
def takeEscape : List Char → Option (Char × List Char)
  | 'b' :: rest => some ('\x08', rest)
  | 't' :: rest => some ('\t', rest)
  | 'n' :: rest => some ('\n', rest)
  | 'f' :: rest => some ('\x0c', rest)
  | 'r' :: rest => some ('\r', rest)
  | 'e' :: rest => some ('\x1b', rest)
  | '"' :: rest => some ('"', rest)
  | '\\' :: rest => some ('\\', rest)
  | 'x' :: rest => takeCode 2 rest
  | 'u' :: rest => takeCode 4 rest
  | 'U' :: rest => takeCode 8 rest
  | _ => none

/-- A string on one line, up to and with its closing quote. -/
def readLineText (quote : Char) (escapes : Bool) : Nat → List Char → Option (List Char × List Char)
  | 0, _ => none
  | _, [] => none
  | fuel + 1, c :: rest =>
    if c == quote then some ([], rest)
    else if escapes && c == '\\' then do
      let (c, rest) ← takeEscape rest
      let (text, rest) ← readLineText quote escapes fuel rest
      some (c :: text, rest)
    else if isAllowed c then
      (readLineText quote escapes fuel rest).map fun (text, rest) => (c :: text, rest)
    else none

/-- The end of a line and all blanks and line ends after it, if nothing but blanks
stands before it. -/
def skipContinuation (text : List Char) : Option (List Char) :=
  (takeNewline (skipGap text)).map fun rest =>
    rest.dropWhile fun c => isGap c || c == '\n' || c == '\r'

/-- A string over several lines, up to and with its three closing quotes; one or two
more quotes before them belong to the string. -/
def readBlockText (quote : Char) (escapes : Bool) :
    Nat → List Char → Option (List Char × List Char)
  | 0, _ => none
  | _, [] => none
  | fuel + 1, c :: rest =>
    match c == quote, rest with
    | true, q₂ :: q₃ :: rest =>
      if q₂ == quote && q₃ == quote then
        let extra := (rest.take 2).takeWhile (· == quote)
        some (extra, rest.drop extra.length)
      else
        (readBlockText quote escapes fuel (q₂ :: q₃ :: rest)).map fun (text, rest) =>
          (c :: text, rest)
    | true, _ => none
    | false, rest =>
      if escapes && c == '\\' then
        match skipContinuation rest with
        | some rest => readBlockText quote escapes fuel rest
        | none => do
          let (c, rest) ← takeEscape rest
          let (text, rest) ← readBlockText quote escapes fuel rest
          some (c :: text, rest)
      else
        match takeNewline (c :: rest) with
        | some rest =>
          (readBlockText quote escapes fuel rest).map fun (text, rest) => ('\n' :: text, rest)
        | none =>
          if isAllowed c then
            (readBlockText quote escapes fuel rest).map fun (text, rest) => (c :: text, rest)
          else none

/-- A string of any kind, from its opening quote on. -/
def readText (text : List Char) : Option (List Char × List Char) :=
  let read (quote : Char) (escapes : Bool) (rest : List Char) :=
    match rest with
    | q₂ :: q₃ :: rest =>
      if q₂ == quote && q₃ == quote then
        readBlockText quote escapes (rest.length + 1) ((takeNewline rest).getD rest)
      else readLineText quote escapes (rest.length + 3) (q₂ :: q₃ :: rest)
    | rest => readLineText quote escapes (rest.length + 1) rest
  match text with
  | '"' :: rest => read '"' true rest
  | '\'' :: rest => read '\'' false rest
  | _ => none

def isBareKeyChar (c : Char) : Bool :=
  c.isAlphanum || c == '_' || c == '-'

/-- One part of a key: bare, or quoted on one line. -/
def readKeyPart (text : List Char) : Option (String × List Char) :=
  let named := fun ((name, rest) : List Char × List Char) => (String.ofList name, rest)
  match text with
  | '"' :: rest => (readLineText '"' true (rest.length + 1) rest).map named
  | '\'' :: rest => (readLineText '\'' false (rest.length + 1) rest).map named
  | _ =>
    match text.takeWhile isBareKeyChar with
    | [] => none
    | run => some (String.ofList run, text.drop run.length)

/-- A key: parts divided by points, with blanks around them. -/
def readKey : Nat → List Char → Option (List String × List Char)
  | 0, _ => none
  | fuel + 1, text => do
    let (part, rest) ← readKeyPart (skipGap text)
    match skipGap rest with
    | '.' :: rest =>
      let (parts, rest) ← readKey fuel rest
      some (part :: parts, rest)
    | rest => some ([part], rest)

def isScalarChar (c : Char) : Bool :=
  c.isAlphanum || c == '+' || c == '-' || c == '_' || c == '.' || c == ':'

/-- A number, date or truth value. A single space may divide a date from a time. -/
def readScalar (text : List Char) : Option (Toml × List Char) :=
  let run := text.takeWhile isScalarChar
  let rest := text.drop run.length
  let (literal, rest) := match isDate run, rest with
    | true, ' ' :: next :: more =>
      if next.isDigit then
        let time := (next :: more).takeWhile isScalarChar
        (run ++ ' ' :: time, (next :: more).drop time.length)
      else (run, rest)
    | _, _ => (run, rest)
  if literal == ['t', 'r', 'u', 'e'] then some (.boolean true, rest)
  else if literal == ['f', 'a', 'l', 's', 'e'] then some (.boolean false, rest)
  else if isScalar literal then some (.scalar literal, rest)
  else none

/-- How deeply arrays and inline tables may nest. -/
def nestingLimit : Nat := 80

mutual

/-- A value. `depth` is how many levels it may still open, and the second argument
bounds the number of calls. -/
def readValue (depth : Nat) : Nat → List Char → Option (Toml × List Char)
  | 0, _ => none
  | fuel + 1, text =>
    match text, depth with
    | '[' :: _, 0 => none
    | '\x7b' :: _, 0 => none
    | '[' :: rest, depth + 1 =>
      (readItems depth fuel rest).map fun (items, rest) => (.array items, rest)
    | '\x7b' :: rest, depth + 1 =>
      (readInline depth fuel [] rest).map fun (entries, rest) => (.table .inlined entries, rest)
    | '"' :: _, _ => (readText text).map fun (value, rest) => (.string (String.ofList value), rest)
    | '\'' :: _, _ => (readText text).map fun (value, rest) => (.string (String.ofList value), rest)
    | _, _ => readScalar text

/-- The items of an array that are still to come, with its closing bracket. -/
def readItems (depth : Nat) : Nat → List Char → Option (List Toml × List Char)
  | 0, _ => none
  | fuel + 1, text =>
    match skipFiller false text with
    | ']' :: rest => some ([], rest)
    | text => do
      let (item, rest) ← readValue depth fuel text
      match skipFiller false rest with
      | ',' :: rest =>
        let (items, rest) ← readItems depth fuel rest
        some (item :: items, rest)
      | ']' :: rest => some ([item], rest)
      | _ => none

/-- The entries of an inline table that are still to come, with its closing brace. -/
def readInline (depth : Nat) : Nat → Entries → List Char → Option (Entries × List Char)
  | 0, _, _ => none
  | fuel + 1, entries, text =>
    match skipFiller false text with
    | '\x7d' :: rest => some (entries, rest)
    | text => do
      let (keys, rest) ← readKey (text.length + 1) text
      match rest with
      | '=' :: rest =>
        let (value, rest) ← readValue depth fuel (skipGap rest)
        let entries ← assign value keys .header false entries
        match skipFiller false rest with
        | ',' :: rest => readInline depth fuel entries rest
        | '\x7d' :: rest => some (entries, rest)
        | _ => none
      | _ => none

end

/-- What has been read: the path of the current header and the root table. -/
structure Progress where
  header : List String
  root : Entries

/-- The header of a table, from after its brackets up to the closing ones. -/
def readHeader (closing : List Char) (text : List Char) : Option (List String × List Char) := do
  let (path, rest) ← readKey (text.length + 1) text
  if rest.take closing.length == closing then some (path, rest.drop closing.length) else none

/-- One line with something on it. -/
def readLine (progress : Progress) (text : List Char) : Option (Progress × List Char) :=
  match text with
  | '[' :: '[' :: rest => do
    let (path, rest) ← readHeader [']', ']'] rest
    let key ← path.getLast?
    some (⟨path, ← declareRow path.dropLast key progress.root⟩, rest)
  | '[' :: rest => do
    let (path, rest) ← readHeader [']'] rest
    let key ← path.getLast?
    some (⟨path, ← declareTable path.dropLast key progress.root⟩, rest)
  | _ => do
    let (keys, rest) ← readKey (text.length + 1) text
    match rest with
    | '=' :: rest =>
      let rest := skipGap rest
      let (value, rest) ← readValue nestingLimit (2 * rest.length + 2) rest
      let root ← atPath (assign value keys .header false) progress.header progress.root
      some ({ progress with root := root }, rest)
    | _ => none

/-- Reads the lines of a document; each takes at least one character. -/
def readLines : Nat → Progress → List Char → Option Entries
  | 0, _, _ => none
  | fuel + 1, progress, text =>
    match skipGap text with
    | [] => some progress.root
    | '#' :: rest => (endLine ('#' :: rest)).bind (readLines fuel progress)
    | '\n' :: rest => readLines fuel progress rest
    | '\r' :: rest => (takeNewline ('\r' :: rest)).bind (readLines fuel progress)
    | text => do
      let (progress, rest) ← readLine progress text
      readLines fuel progress (← endLine rest)

/-- Reads a document; a byte order mark may stand before it. -/
def ofText? (text : String) : Option Entries :=
  let chars := match text.toList with
    | '\ufeff' :: rest => rest
    | chars => chars
  readLines (chars.length + 1) ⟨[], []⟩ chars

end MonthlyForecast.Toml
