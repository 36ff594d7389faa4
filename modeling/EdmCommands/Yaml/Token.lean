import EdmCommands.Yaml.Scalar

/-!
# EdmCommands.Yaml.Token

The tokens of a YAML text, and the readers of those that are not texts: anchors, tags and
directives. A reader starts behind the mark of its token and answers with its parts and the cursor
behind it, or with nothing when the token is not well formed.
-/

namespace EdmCommands
namespace Yaml

inductive Token where
  | streamStart
  | streamEnd
  | version (major minor : Nat)
  | handle (name uri : String)
  | documentStart
  | documentEnd
  | blockSequenceStart
  | blockMappingStart
  | blockEnd
  | flowSequenceStart
  | flowSequenceEnd
  | flowMappingStart
  | flowMappingEnd
  | blockEntry
  | flowEntry
  | key
  | value
  | alias (name : String)
  | anchor (name : String)
  | tag (handle suffix : String)
  | plain (text : String)
  | quoted (text : String)
deriving Repr, DecidableEq

/-- The characters at the cursor that pass a test, and the cursor behind them. -/
def takeChars (test : Char → Bool) (c : Cursor) : List Char × Cursor :=
  (c.rest.takeWhile test, c.skipWhile test)

def anchorName (c : Cursor) : Option (String × Cursor) :=
  let (name, after) := takeChars isWordChar c
  let ends := endsToken after.rest || after.rest.head?.any fun d =>
    ['?', ':', ',', ']', '\x7d', '%', '@', '\x60'].contains d
  if name.isEmpty || !ends then none else some (String.ofList name, after)

/-! ## Tags -/

/-- Whether the character may stand in the address that a tag is. -/
def isUriChar (inBrackets : Bool) (c : Char) : Bool :=
  isWordChar c || [';', '/', '?', ':', '@', '&', '=', '+', '$', '.', '%', '!', '~', '*', '\'', '(',
    ')'].contains c || (inBrackets && [',', '[', ']'].contains c)

def byte? (a b : Char) : Option UInt8 :=
  (Plain.numeral? 16 [a, b]).map Nat.toUInt8

/-- The bytes of escaped characters, each written as a percent sign and two digits, up to the first
character that is written otherwise. -/
def escapedBytes : List Char → Option (List UInt8 × List Char)
  | '%' :: a :: b :: rest =>
    match byte? a b with
    | none => none
    | some byte => (escapedBytes rest).map fun (bytes, after) => (byte :: bytes, after)
  | ['%'] => none
  | ['%', _] => none
  | rest => some ([], rest)

def unescapeUri : Nat → List Char → Option (List Char)
  | 0, _ => none
  | _ + 1, [] => some []
  | fuel + 1, '%' :: rest =>
    match escapedBytes ('%' :: rest) with
    | none => none
    | some (bytes, after) =>
      match String.fromUTF8? ⟨bytes.toArray⟩ with
      | none => none
      | some text => (unescapeUri fuel after).map (text.toList ++ ·)
  | fuel + 1, c :: rest => (unescapeUri fuel rest).map (c :: ·)

/-- The address at the cursor, with the escapes replaced. -/
def uri (inBrackets : Bool) (c : Cursor) : Option (List Char × Cursor) :=
  let (chars, after) := takeChars (isUriChar inBrackets) c
  (unescapeUri (chars.length + 1) chars).map fun text => (text, after)

/-- An exclamation mark with a name and perhaps another one behind it. -/
def handleName (c : Cursor) : Option (List Char × Cursor) :=
  match c.rest with
  | '!' :: _ =>
    let (name, after) := takeChars isWordChar c.skip
    match after.rest with
    | '!' :: _ => some ('!' :: (name ++ ['!']), after.skip)
    | _ => some ('!' :: name, after)
  | _ => none

def tagParts (c : Cursor) : Option ((List Char × List Char) × Cursor) :=
  match c.rest with
  | '!' :: '<' :: _ =>
    match uri true c.skip.skip with
    | some (text, after) =>
      if text.isEmpty || after.rest.head? != some '>' then none else some (([], text), after.skip)
    | none => none
  | _ =>
    match handleName c with
    | none => none
    | some (name, after) =>
      if name.length > 1 && name.getLast? == some '!' then
        match uri false after with
        | some (text, behind) => if text.isEmpty then none else some ((name, text), behind)
        | none => none
      else
        match uri false after with
        | some (text, behind) =>
          let suffix := name.tail ++ text
          if suffix.isEmpty then some (([], ['!']), behind) else some ((['!'], suffix), behind)
        | none => none

/-- A tag from its exclamation mark on. A separator or, inside brackets, a comma must follow. -/
def tagToken (inFlow : Bool) (c : Cursor) : Option (Token × Cursor) :=
  match tagParts c with
  | none => none
  | some ((handle, suffix), after) =>
    if endsToken after.rest || (inFlow && after.rest.head? == some ',') then
      some (.tag (String.ofList handle) (String.ofList suffix), after)
    else none

/-! ## Directives -/

/-- A number of at most nine digits. -/
def versionNumber (c : Cursor) : Option (Nat × Cursor) :=
  let (digits, after) := takeChars Char.isDigit c
  if digits.isEmpty || digits.length > 9 then none
  else (Plain.numeral? 10 digits).map fun n => (n, after)

def versionDirective (c : Cursor) : Option (Token × Cursor) :=
  match versionNumber (c.skipWhile isBlank) with
  | some (major, after) =>
    if after.rest.head? == some '.' then
      (versionNumber after.skip).map fun (minor, behind) => (.version major minor, behind)
    else none
  | none => none

def handleDirective (c : Cursor) : Option (Token × Cursor) :=
  match handleName (c.skipWhile isBlank) with
  | none => none
  | some (name, after) =>
    if (name.length > 1 && name.getLast? != some '!') || !after.rest.head?.any isBlank then none
    else
      match uri true (after.skipWhile isBlank) with
      | some (text, behind) =>
        if text.isEmpty || !endsToken behind.rest then none
        else some (.handle (String.ofList name) (String.ofList text), behind)
      | none => none

/-- A directive behind its percent sign, with the rest of its line. -/
def directive (c : Cursor) : Option (Token × Cursor) :=
  let (name, after) := takeChars isWordChar c
  let found :=
    if !endsToken after.rest then none
    else if name == "YAML".toList then versionDirective after
    else if name == "TAG".toList then handleDirective after
    else none
  match found with
  | none => none
  | some (token, behind) => behind.skipLineEnd?.map fun next => (token, next)

end Yaml
end EdmCommands
