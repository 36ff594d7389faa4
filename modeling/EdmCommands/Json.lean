/-!
# EdmCommands.Json

JSON values and how they are written. The fields of an object keep their order. Characters outside
ASCII stand for themselves; quotes, backslashes and controls are escaped.

* `Json.compact`: the text without any blank.
* `Json.pretty`: one field or item a line, two spaces a level, no newline at the end.
-/

namespace EdmCommands

/-- A JSON value without fractional numbers. -/
inductive Json where
  | null
  | bool (value : Bool)
  | int (value : Int)
  | text (value : String)
  | arr (items : List Json)
  | obj (fields : List (String × Json))
deriving Repr, Inhabited

namespace Json

def nat (n : Nat) : Json :=
  .int (Int.ofNat n)

def optText : Option String → Json
  | some s => .text s
  | none => .null

def texts (xs : List String) : Json :=
  .arr (xs.map .text)

def hexDigit (n : Nat) : Char :=
  (Nat.toDigits 16 n).headD '0'

def charText (c : Char) : List Char :=
  if c == '"' then ['\\', '"']
  else if c == '\\' then ['\\', '\\']
  else if c == '\x08' then ['\\', 'b']
  else if c == '\x0c' then ['\\', 'f']
  else if c == '\n' then ['\\', 'n']
  else if c == '\r' then ['\\', 'r']
  else if c == '\t' then ['\\', 't']
  else if c.toNat < 0x20 then
    ['\\', 'u', '0', '0', hexDigit (c.toNat / 16), hexDigit (c.toNat % 16)]
  else [c]

def quotedChars (s : String) : List Char :=
  '"' :: (s.toList.flatMap charText ++ ['"'])

/-- The text of a value that has no parts. -/
def atomChars : Json → List Char
  | .null => "null".toList
  | .bool true => "true".toList
  | .bool false => "false".toList
  | .int i => (toString i).toList
  | .text s => quotedChars s
  | .arr _ => "[]".toList
  | .obj _ => "{}".toList

mutual

def compactChars : Json → List Char
  | .arr (item :: rest) => '[' :: (compactChars item ++ compactItems rest)
  | .obj ((key, value) :: rest) =>
    '{' :: (quotedChars key ++ ':' :: (compactChars value ++ compactFields rest))
  | atom => atomChars atom

/-- The items behind the first one. -/
def compactItems : List Json → List Char
  | [] => [']']
  | item :: rest => ',' :: (compactChars item ++ compactItems rest)

/-- The fields behind the first one. -/
def compactFields : List (String × Json) → List Char
  | [] => ['}']
  | (key, value) :: rest =>
    ',' :: (quotedChars key ++ ':' :: (compactChars value ++ compactFields rest))

end

/-- The start of a line at a level of nesting. -/
def newLine (level : Nat) : List Char :=
  '\n' :: List.replicate (2 * level) ' '

mutual

/-- The characters of the indented text of a value at a level of nesting. -/
def prettyChars (level : Nat) : Json → List Char
  | .arr (item :: rest) =>
    '[' :: (newLine (level + 1) ++ (prettyChars (level + 1) item ++ prettyItems level rest))
  | .obj ((key, value) :: rest) =>
    '{' :: (newLine (level + 1) ++ (quotedChars key ++
      ':' :: ' ' :: (prettyChars (level + 1) value ++ prettyFields level rest)))
  | atom => atomChars atom

/-- The items behind the first one of an array at `level`. -/
def prettyItems (level : Nat) : List Json → List Char
  | [] => newLine level ++ [']']
  | item :: rest =>
    ',' :: (newLine (level + 1) ++ (prettyChars (level + 1) item ++ prettyItems level rest))

/-- The fields behind the first one of an object at `level`. -/
def prettyFields (level : Nat) : List (String × Json) → List Char
  | [] => newLine level ++ ['}']
  | (key, value) :: rest =>
    ',' :: (newLine (level + 1) ++ (quotedChars key ++
      ':' :: ' ' :: (prettyChars (level + 1) value ++ prettyFields level rest)))

end

/-- The text without blanks. -/
def compact (j : Json) : String :=
  String.ofList (compactChars j)

def pretty (j : Json) : String :=
  String.ofList (prettyChars 0 j)

end Json

end EdmCommands
