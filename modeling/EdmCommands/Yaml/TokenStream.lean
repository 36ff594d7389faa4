import EdmCommands.Yaml.Token

/-!
# EdmCommands.Yaml.TokenStream

The tokens of a YAML text, read as they are needed. What is written as a key is known only by the
colon behind it, so a token that may begin a key is held back until its line has been read on; the
marks of the key and of the mapping are then put in before it. Indentation that grows or shrinks
begins and ends block collections.

* `TokenStream.peek`: the next token, and the stream that remembers it; nothing when the text
  cannot be read so far.
* `TokenStream.drop`: the stream behind that token.
-/

namespace EdmCommands
namespace Yaml

/-- A token that may turn out to begin a key. -/
structure KeyStart where
  /-- The number of the token in the stream. -/
  number : Nat
  mark : Mark
  /-- Nothing but a key can stand there. -/
  required : Bool
deriving Repr, DecidableEq

structure TokenStream where
  cursor : Cursor
  /-- The tokens that were read and not taken, and the number of those taken. -/
  queue : List Token := [.streamStart]
  taken : Nat := 0
  /-- The column of the entries of the innermost block collection, and of those around it. -/
  indent : Int := -1
  indents : List Int := []
  /-- A key may begin at the cursor. -/
  keyAllowed : Bool := true
  /-- For the innermost brackets and those around them, and last outside of all brackets, the token
  that may begin a key there. -/
  keyStarts : List (Option KeyStart) := [none]
  /-- More steps than reading the text can take. -/
  budget : Nat
deriving Repr

namespace TokenStream

variable (s : TokenStream)

def ofText (cs : List Char) : TokenStream :=
  { cursor := { rest := cs }, budget := cs.length + 2 }

def inFlow : Bool :=
  s.keyStarts.length > 1

/-- The stream with a token read that ends before the cursor given. -/
def push (token : Token) (after : Cursor) : TokenStream :=
  { s with queue := s.queue ++ [token], cursor := after }

def insertAt (number : Nat) (token : Token) : TokenStream :=
  let before := number - s.taken
  { s with queue := s.queue.take before ++ token :: s.queue.drop before }

/-! ## Keys -/

/-- What is left of a possible key at a place further on: it ends with its line and after 1024
characters. A required one must not be lost. -/
def keepKey (m : Mark) : Option KeyStart → Option (Option KeyStart)
  | none => some none
  | some k =>
    if k.mark.line < m.line || k.mark.index + 1024 < m.index then
      if k.required then none else some none
    else some (some k)

/-- Gives up the possible keys that the cursor has gone beyond. -/
def dropStaleKeys : Option TokenStream :=
  (s.keyStarts.mapM (keepKey s.cursor.mark)).map fun ks => { s with keyStarts := ks }

/-- Gives up the possible key of the innermost brackets. -/
def dropKey : Option TokenStream :=
  match s.keyStarts with
  | some k :: rest => if k.required then none else some { s with keyStarts := none :: rest }
  | _ => some s

/-- Notes that the next token may begin a key. -/
def noteKey : Option TokenStream :=
  if !s.keyAllowed then some s
  else
    s.dropKey.map fun t =>
      let start : KeyStart :=
        { number := t.taken + t.queue.length
          mark := t.cursor.mark
          required := !t.inFlow && t.indent == Int.ofNat t.cursor.mark.column }
      { t with keyStarts := some start :: t.keyStarts.tail }

/-! ## Indentation -/

/-- Begins a block collection at a deeper column. Its token goes before the one of the given number,
or behind all. -/
def openBlock (column : Nat) (number : Option Nat) (token : Token) : TokenStream :=
  if s.inFlow || s.indent ≥ Int.ofNat column then s
  else
    let t := { s with indents := s.indent :: s.indents, indent := Int.ofNat column }
    match number with
    | some n => t.insertAt n token
    | none => t.push token t.cursor

/-- The columns that stay when all deeper than `column` are closed, and the number of closed
ones. -/
def closeTo (column : Int) (indent : Int) : List Int → Nat × Int × List Int
  | [] => (0, indent, [])
  | outer :: rest =>
    if indent > column then
      let (n, left) := closeTo column outer rest
      (n + 1, left)
    else (0, indent, outer :: rest)

/-- Ends the block collections that are deeper than a column. -/
def closeBlocks (column : Int) : TokenStream :=
  if s.inFlow then s
  else
    let (n, indent, indents) := closeTo column s.indent s.indents
    { s with
      queue := s.queue ++ List.replicate n .blockEnd
      indent := indent
      indents := indents }

/-! ## Reading one token -/

/-- Skips blanks, comments and line breaks. Tabs may stand where no key can begin. -/
def skipSpace : Nat → TokenStream → TokenStream
  | 0, s => s
  | fuel + 1, s =>
    let start :=
      if s.cursor.mark.index == 0 && s.cursor.rest.head? == some '\ufeff' then s.cursor.skip
      else s.cursor
    let tabs := s.inFlow || !s.keyAllowed
    let atBreak := (start.skipWhile fun c => c == ' ' || (tabs && c == '\t')).skipComment
    match atBreak.lineBreak? with
    | some (_, next) =>
      skipSpace fuel { s with cursor := next, keyAllowed := s.keyAllowed || !s.inFlow }
    | none => { s with cursor := atBreak }

def readEnd : Option TokenStream :=
  let atEnd : Cursor :=
    if s.cursor.mark.column == 0 then s.cursor
    else { s.cursor with mark := s.cursor.mark.nextLine 0 }
  (closeBlocks { s with cursor := atEnd } (-1)).dropKey.map fun t =>
    { t with keyAllowed := false }.push .streamEnd t.cursor

def readDirective : Option TokenStream :=
  match (s.closeBlocks (-1)).dropKey with
  | none => none
  | some t =>
    (directive t.cursor.skip).map fun (token, after) =>
      { t with keyAllowed := false }.push token after

def readDocumentMark (token : Token) : Option TokenStream :=
  (s.closeBlocks (-1)).dropKey.map fun t =>
    { t with keyAllowed := false }.push token (t.cursor.skipMany 3)

def readFlowStart (token : Token) : Option TokenStream :=
  s.noteKey.map fun t =>
    { t with keyStarts := none :: t.keyStarts, keyAllowed := true }.push token t.cursor.skip

def readFlowEnd (token : Token) : Option TokenStream :=
  s.dropKey.map fun t =>
    let outer := if t.inFlow then t.keyStarts.tail else t.keyStarts
    { t with keyStarts := outer, keyAllowed := false }.push token t.cursor.skip

/-- A comma inside brackets. -/
def readFlowEntry : Option TokenStream :=
  s.dropKey.map fun t => { t with keyAllowed := true }.push .flowEntry t.cursor.skip

def readBlockEntry : Option TokenStream :=
  if !s.inFlow && !s.keyAllowed then none
  else
    (s.openBlock s.cursor.mark.column none .blockSequenceStart).dropKey.map fun t =>
      { t with keyAllowed := true }.push .blockEntry t.cursor.skip

def readKey : Option TokenStream :=
  if !s.inFlow && !s.keyAllowed then none
  else
    (s.openBlock s.cursor.mark.column none .blockMappingStart).dropKey.map fun t =>
      { t with keyAllowed := !t.inFlow }.push .key t.cursor.skip

/-- The mark of a value. It makes a key of what may be one before it. -/
def readValue : Option TokenStream :=
  match s.keyStarts with
  | some k :: outer =>
    let t := (s.insertAt k.number .key).openBlock k.mark.column (some k.number) .blockMappingStart
    some ({ t with keyStarts := none :: outer, keyAllowed := false }.push .value t.cursor.skip)
  | _ =>
    if !s.inFlow && !s.keyAllowed then none
    else
      let t := s.openBlock s.cursor.mark.column none .blockMappingStart
      some ({ t with keyAllowed := !t.inFlow }.push .value t.cursor.skip)

/-- A token that may begin a key, by its reader. -/
def readNoted (reader : Cursor → Option (Token × Cursor)) : Option TokenStream :=
  match s.noteKey with
  | none => none
  | some t =>
    (reader t.cursor).map fun (token, after) => { t with keyAllowed := false }.push token after

def readQuoted (isSingle : Bool) : Option TokenStream :=
  s.readNoted fun c => (quotedText isSingle c).map fun (chars, after) =>
    (.quoted (String.ofList chars), after)

def readBlock (isLiteral : Bool) : Option TokenStream :=
  match s.dropKey with
  | none => none
  | some t =>
    (blockText isLiteral t.indent t.cursor.skip).map fun (chars, after) =>
      { t with keyAllowed := true }.push (.quoted (String.ofList chars)) after

/-- A plain text. When it has gone on to another line, a key may begin there. -/
def readPlain : Option TokenStream :=
  match s.noteKey with
  | none => none
  | some t =>
    (plainText t.inFlow (t.indent + 1).toNat t.cursor).map fun found =>
      { t with keyAllowed := found.onNewLine }.push (.plain (String.ofList found.chars)) found.after

def startsPlain (cs : List Char) : Bool :=
  match cs with
  | [] => false
  | c :: rest =>
    let isMark := ['-', '?', ':', ',', '[', ']', '\x7b', '\x7d', '#', '&', '*', '!', '|', '>', '\'',
      '"', '%', '@', '\x60'].contains c
    !(endsToken cs || isMark) ||
    (c == '-' && !rest.head?.any isBlank) ||
    (!s.inFlow && (c == '?' || c == ':') && !endsToken rest)

def readHere : Option TokenStream :=
  let cs := s.cursor.rest
  let isFirst := s.cursor.mark.column == 0
  match cs with
  | [] => s.readEnd
  | c :: rest =>
    let alone := endsToken rest
    if isFirst && c == '%' then s.readDirective
    else if isFirst && c == '-' && isDocumentMark cs then s.readDocumentMark .documentStart
    else if isFirst && c == '.' && isDocumentMark cs then s.readDocumentMark .documentEnd
    else if c == '[' then s.readFlowStart .flowSequenceStart
    else if c == '\x7b' then s.readFlowStart .flowMappingStart
    else if c == ']' then s.readFlowEnd .flowSequenceEnd
    else if c == '\x7d' then s.readFlowEnd .flowMappingEnd
    else if c == ',' then s.readFlowEntry
    else if c == '-' && alone then s.readBlockEntry
    else if c == '?' && (s.inFlow || alone) then s.readKey
    else if c == ':' && (s.inFlow || alone) then s.readValue
    else if c == '*' then
      s.readNoted fun c => (anchorName c.skip).map fun (name, after) => (.alias name, after)
    else if c == '&' then
      s.readNoted fun c => (anchorName c.skip).map fun (name, after) => (.anchor name, after)
    else if c == '!' then s.readNoted (tagToken s.inFlow)
    else if c == '|' && !s.inFlow then s.readBlock true
    else if c == '>' && !s.inFlow then s.readBlock false
    else if c == '\'' then s.readQuoted true
    else if c == '"' then s.readQuoted false
    else if s.startsPlain cs then s.readPlain
    else none

def read : Option TokenStream :=
  match (skipSpace s.budget s).dropStaleKeys with
  | none => none
  | some t => (t.closeBlocks (Int.ofNat t.cursor.mark.column)).readHere

/-! ## The next token -/

/-- Whether the next token is not known yet: there is none, or it may still turn out to begin a
key. -/
def isPending : Bool :=
  s.queue.isEmpty || s.keyStarts.any fun k => k.any (·.number == s.taken)

def settle : Nat → TokenStream → Option TokenStream
  | 0, s => some s
  | fuel + 1, s =>
    let fresh := if s.queue.isEmpty then some s else s.dropStaleKeys
    match fresh with
    | none => none
    | some t =>
      if t.isPending then
        match t.read with
        | none => none
        | some next => settle fuel next
      else some t

/-- The next token, and the stream that remembers it. -/
def peek : Option (Token × TokenStream) :=
  match settle s.budget s with
  | none => none
  | some t => t.queue.head?.map fun token => (token, t)

def drop : TokenStream :=
  { s with queue := s.queue.tail, taken := s.taken + 1 }

end TokenStream
end Yaml
end EdmCommands
