/-!
# EdmCommands.Yaml.Cursor

A place in a YAML text: what is still to be read, and the mark of the next character. Line breaks
are carriage return, line feed, the two together, next line, and the line and paragraph
separators.

* `Mark`: number, line and column of a character.
* `Cursor.skip`, `Cursor.skipWhile`, `Cursor.skipBreak`: steps over characters.
-/

namespace EdmCommands
namespace Yaml

def isBreak (c : Char) : Bool :=
  c == '\n' || c == '\r' || c == '\u0085' || c == '\u2028' || c == '\u2029'

/-- Whether the character separates tokens within a line. -/
def isBlank (c : Char) : Bool :=
  c == ' ' || c == '\t'

/-- Whether the character is a letter, a digit, an underscore or a hyphen, in ASCII. -/
def isWordChar (c : Char) : Bool :=
  c.isAlphanum || c == '_' || c == '-'

/-- Whether a token ends before these characters: at a blank, a line break or the end. -/
def endsToken : List Char → Bool
  | [] => true
  | c :: _ => isBlank c || isBreak c

/-- Whether the characters start with one of the two marks between documents. -/
def isDocumentMark : List Char → Bool
  | '-' :: '-' :: '-' :: rest => endsToken rest
  | '.' :: '.' :: '.' :: rest => endsToken rest
  | _ => false

/-- The number, line and column of a character. -/
structure Mark where
  index : Nat := 0
  line : Nat := 0
  column : Nat := 0
deriving Repr, DecidableEq

namespace Mark

def next (m : Mark) : Mark :=
  { m with index := m.index + 1, column := m.column + 1 }

def nextLine (m : Mark) (width : Nat) : Mark :=
  { index := m.index + width, line := m.line + 1, column := 0 }

end Mark

/-- A place in a text. -/
structure Cursor where
  mark : Mark := {}
  rest : List Char
deriving Repr, DecidableEq

namespace Cursor

def skip : Cursor → Cursor
  | ⟨m, _ :: rest⟩ => ⟨m.next, rest⟩
  | c => c

def skipMany : Nat → Cursor → Cursor
  | 0, c => c
  | n + 1, c => skipMany n c.skip

/-- The mark and the rest behind the characters of one line that pass a test. -/
def skipCharsWhile (test : Char → Bool) (m : Mark) : List Char → Cursor
  | [] => ⟨m, []⟩
  | c :: rest => if test c then skipCharsWhile test m.next rest else ⟨m, c :: rest⟩

/-- The cursor behind the characters of one line that pass a test. -/
def skipWhile (test : Char → Bool) (c : Cursor) : Cursor :=
  skipCharsWhile test c.mark c.rest

/-- The line break at the cursor, as it counts in a text, and the cursor behind it. -/
def lineBreak? : Cursor → Option (Char × Cursor)
  | ⟨m, '\r' :: '\n' :: rest⟩ => some ('\n', ⟨m.nextLine 2, rest⟩)
  | ⟨m, c :: rest⟩ =>
    if c == '\u2028' || c == '\u2029' then some (c, ⟨m.nextLine 1, rest⟩)
    else if isBreak c then some ('\n', ⟨m.nextLine 1, rest⟩)
    else none
  | ⟨_, []⟩ => none

def skipBreak (c : Cursor) : Cursor :=
  match c.lineBreak? with
  | some (_, after) => after
  | none => c

def skipComment (c : Cursor) : Cursor :=
  if c.rest.head? == some '#' then c.skipWhile (!isBreak ·) else c

/-- The cursor behind what may follow a token to the end of its line: blanks, a comment, and the
line break. -/
def skipLineEnd? (c : Cursor) : Option Cursor :=
  let atEnd := (c.skipWhile isBlank).skipComment
  match atEnd.rest with
  | [] => some atEnd
  | _ :: _ => atEnd.lineBreak?.map (·.2)

end Cursor
end Yaml
end EdmCommands
