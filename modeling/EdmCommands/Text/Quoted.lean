import EdmCommands.Text.EscapeTable

/-!
# EdmCommands.Text.Quoted

A text between double quotes, as messages show it. Quotes and backslashes get a backslash, the
common controls their letter, and what cannot be seen is written by its code point.
-/

namespace EdmCommands
namespace Text

def hexDigits (n : Nat) : String :=
  String.ofList (Nat.toDigits 16 n)

def isEscaped (c : Char) : Bool :=
  escapedRanges.any fun r => r.first ≤ c.toNat && c.toNat ≤ r.last

/-- How a character is written between quotes of the kind `mark`. -/
def quotedChar (marks : List Char) (c : Char) : String :=
  if c == '\n' then "\\n"
  else if c == '\r' then "\\r"
  else if c == '\t' then "\\t"
  else if c == '\x00' then "\\0"
  else if c == '\\' || marks.contains c then String.ofList ['\\', c]
  else if isEscaped c then "\\u\x7b" ++ hexDigits c.toNat ++ "\x7d"
  else String.ofList [c]

def quoted (s : String) : String :=
  "\"" ++ String.join (s.toList.map (quotedChar ['"'])) ++ "\""

/-- A path between double quotes; single quotes are escaped too. -/
def quotedPath (s : String) : String :=
  "\"" ++ String.join (s.toList.map (quotedChar ['"', '\''])) ++ "\""

end Text
end EdmCommands
