/-! Replacing a part of a text. Occurrences are found from left to right and do not
overlap, and what is put in is not searched again. -/
namespace MonthlyForecast.Text

/-- Replaces a pattern in what follows the characters that an occurrence still covers. -/
def replaceFrom (pattern fresh : List Char) : Nat → List Char → List Char
  | _, [] => []
  | covered + 1, _ :: rest => replaceFrom pattern fresh covered rest
  | 0, first :: rest =>
    if pattern.isPrefixOf (first :: rest) then
      fresh ++ replaceFrom pattern fresh (pattern.length - 1) rest
    else first :: replaceFrom pattern fresh 0 rest

/-- Replaces every occurrence of a pattern, which must not be empty. -/
def replaceAll (pattern fresh text : String) : String :=
  String.ofList (replaceFrom pattern.toList fresh.toList 0 text.toList)

end MonthlyForecast.Text
