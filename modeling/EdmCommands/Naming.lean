import EdmCommands.Text.Casing
import EdmCommands.Text.Trim

/-!
# EdmCommands.Naming

The spellings that names take on the way from a schema to a command: the PascalCase of nouns and
placeholders, the snake_case of page files, the singular of a segment name, and the choice of a
name that is still free.

* `pascalCase`: each word starts in upper case and the separators go.
* `snakeCase`: words are in lower case with single underscores between them.
* `singular`: the English singular, as far as the usual plural endings tell it.
* `freshName`: the name itself or the name with the least free number behind it.
-/

namespace EdmCommands
namespace Naming

open Text

/-- The characters that end a word and do not appear in PascalCase. -/
def isWordBreak (c : Char) : Bool :=
  c == '_' || c == '-' || c == ' ' || c == '.'

/-- PascalCase of the rest of a text; `starting` says that the next letter starts a word. -/
def pascalChars (starting : Bool) : List Char → List Char
  | [] => []
  | c :: rest =>
    if isWordBreak c then pascalChars true rest
    else if starting then upperChars c ++ pascalChars false rest
    else c :: pascalChars false rest

/-- The text with each word started in upper case and the separators left out. -/
def pascalCase (s : String) : String :=
  String.ofList (pascalChars true s.toList)

def isSnakeBreak (c : Char) : Bool :=
  c == '-' || c == ' ' || c == '.' || c == '/'

/-- Whether an upper case letter between `before` and `after` starts a word: it follows a lower
case letter or a digit, or it ends a run of capitals. -/
def startsWord (before after : Option Char) : Bool :=
  match before with
  | none => false
  | some b => isLowercase b || b.isDigit || after.any isLowercase

/-- The words of the rest of a text in lower case. `before` is the character read last and `last`
the character written last. -/
def snakeChars (before last : Option Char) : List Char → List Char
  | [] => []
  | c :: rest =>
    if isUppercase c then
      let lowered := lowerChars c
      let written :=
        if startsWord before rest.head? && last != some '_' then '_' :: lowered else lowered
      written ++ snakeChars (some c) (written.getLast?.or last) rest
    else if isSnakeBreak c then
      if last.isSome && last != some '_' then '_' :: snakeChars (some c) (some '_') rest
      else snakeChars (some c) last rest
    else c :: snakeChars (some c) (some c) rest

def collapseUnderscores (cs : List Char) : List Char :=
  cs.foldr (fun c rest => if c == '_' && rest.head? == some '_' then rest else c :: rest) []

/-- The text as lower case words with single underscores between them and none at the ends. -/
def snakeCase (s : String) : String :=
  trimWhile (· == '_') (String.ofList (collapseUnderscores (snakeChars none none s.toList)))

/-- The singular of a segment name. The ending is judged without regard to case; a name that is
nothing but an ending keeps its stem. -/
def singular (s : String) : String :=
  let cs := s.toList
  let lower := cs.flatMap lowerChars
  let ends := fun (tail : String) => tail.toList.isSuffixOf lower
  if ends "ies" && s.utf8ByteSize > 3 then
    String.ofList (dropEnd 3 cs ++ ['y'])
  else if (ends "sses" || ends "xes" || ends "ches") && s.utf8ByteSize > 3 then
    String.ofList (dropEnd 2 cs)
  else if ends "s" && !ends "ss" && !ends "us" && s.utf8ByteSize > 1 then
    String.ofList (dropEnd 1 cs)
  else s

/-- The first name that is in `seen` or occurs before in the list. -/
def firstRepeated (seen : List String) : List String → Option String
  | [] => none
  | name :: rest => if seen.contains name then some name else firstRepeated (name :: seen) rest

/-- The names tried for `base`, in order: itself, then with a number behind it. -/
def candidate (base : String) : Nat → String
  | 0 => base
  | k + 1 => base ++ toString (k + 1)

/-- The number of the first candidate that is free. One of the first `taken.length + 1` always is,
because they differ. -/
def freshIndex (base : String) (taken : List String) : Nat :=
  ((List.range (taken.length + 1)).find? fun k => !taken.contains (candidate base k)).getD
    taken.length

/-- The name itself when it is free, else with the least number that makes it so. The number is not
bounded here; one of 32 bits is enough unless `2 ^ 31` names are taken. -/
def freshName (base : String) (taken : List String) : String :=
  candidate base (freshIndex base taken)

end Naming
end EdmCommands
