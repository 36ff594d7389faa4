import EdmCommands.Doc.Plain
import EdmCommands.Yaml.Cursor

/-!
# EdmCommands.Yaml.Scalar

The texts of a YAML document: plain ones, ones in single or double quotes, and block texts that
keep or fold their line breaks. Each reader starts at the first character of its text and answers
with the text and the cursor behind it, or with nothing when the text does not end well.

Between the words of plain and quoted texts a single line break counts as a space, and of several
all but the first stay (`Gap.folded`).
-/

namespace EdmCommands
namespace Yaml

/-- What stands between two words: the blanks before the first line break, and the line breaks. -/
structure Gap where
  blanks : List Char := []
  breaks : List Char := []
  /-- A tab stands where a line has to be indented. -/
  hasStrayTab : Bool := false
  after : Cursor

namespace Gap

/-- The gap at a mark. Lines after the first have to be indented to the column `indent`, and
`onNewLine` says that the first line has ended before. -/
def read (indent : Nat) (onNewLine : Bool) (m : Mark) : List Char → Gap
  | '\r' :: '\n' :: rest =>
    let gap := read indent true (m.nextLine 2) rest
    { gap with blanks := [], breaks := '\n' :: gap.breaks }
  | c :: rest =>
    if isBreak c then
      let gap := read indent true (m.nextLine 1) rest
      let counted := if c == '\u2028' || c == '\u2029' then c else '\n'
      { gap with blanks := [], breaks := counted :: gap.breaks }
    else if isBlank c then
      let gap := read indent onNewLine m.next rest
      { gap with
        blanks := c :: gap.blanks
        hasStrayTab := gap.hasStrayTab || (onNewLine && c == '\t' && m.column < indent) }
    else { after := ⟨m, c :: rest⟩ }
  | [] => { after := ⟨m, []⟩ }

def hasBreak (gap : Gap) : Bool :=
  !gap.breaks.isEmpty

/-- What the gap is in the text around it. -/
def folded (gap : Gap) : List Char :=
  match gap.breaks with
  | [] => gap.blanks
  | ['\n'] => [' ']
  | '\n' :: others => others
  | breaks => breaks

end Gap

/-! ## Plain texts -/

/-- The characters that end a plain text inside brackets. -/
def isFlowMark (c : Char) : Bool :=
  c == ',' || c == '[' || c == ']' || c == '\x7b' || c == '\x7d'

/-- The characters of a plain text up to the next gap or the end of the text. -/
def plainWord (inFlow : Bool) (m : Mark) : List Char → Option (List Char × Cursor)
  | [] => some ([], ⟨m, []⟩)
  | c :: rest =>
    if endsToken (c :: rest) then some ([], ⟨m, c :: rest⟩)
    else if inFlow && c == ':' && rest.head?.any (fun d => d == '?' || isFlowMark d) then none
    else if (c == ':' && endsToken rest) || (inFlow && isFlowMark c) then
      some ([], ⟨m, c :: rest⟩)
    else (plainWord inFlow m.next rest).map fun (word, after) => (c :: word, after)

/-- A plain text that was read, and whether the cursor has gone on to another line. -/
structure PlainText where
  chars : List Char
  after : Cursor
  onNewLine : Bool

def plainFrom (inFlow : Bool) (indent : Nat) : Nat → Gap → Option PlainText
  | 0, gap => some ⟨[], gap.after, gap.hasBreak⟩
  | fuel + 1, gap =>
    let start := gap.after
    if start.mark.column == 0 && isDocumentMark start.rest || start.rest.head? == some '#' then
      some ⟨[], start, gap.hasBreak⟩
    else
      match plainWord inFlow start.mark start.rest with
      | none => none
      | some (word, after) =>
        let text := if word.isEmpty then [] else gap.folded ++ word
        let next := Gap.read indent false after.mark after.rest
        if after.rest.isEmpty || !endsToken after.rest then
          some ⟨text, after, word.isEmpty && gap.hasBreak⟩
        else if next.hasStrayTab then none
        else if !inFlow && next.after.mark.column < indent then
          some ⟨text, next.after, next.hasBreak⟩
        else
          (plainFrom inFlow indent fuel next).map fun found =>
            { found with chars := text ++ found.chars }

/-- A plain text whose further lines are indented to the column `indent`. -/
def plainText (inFlow : Bool) (indent : Nat) (c : Cursor) : Option PlainText :=
  plainFrom inFlow indent (c.rest.length + 1) { after := c }

/-! ## Quoted texts -/

/-- Where a word of a quoted text ends: at the closing quote, at a gap, or at a line break behind a
backslash. -/
structure QuotedWord where
  chars : List Char
  after : Cursor
  escapedBreak : Bool := false

def QuotedWord.push (c : Char) (word : QuotedWord) : QuotedWord :=
  { word with chars := c :: word.chars }

/-- A word between single quotes; two of them stand for one. -/
def singleQuotedWord (m : Mark) : List Char → QuotedWord
  | '\'' :: '\'' :: rest => (singleQuotedWord m.next.next rest).push '\''
  | c :: rest =>
    if c == '\'' || isBlank c || isBreak c then ⟨[], ⟨m, c :: rest⟩, false⟩
    else (singleQuotedWord m.next rest).push c
  | [] => ⟨[], ⟨m, []⟩, false⟩

/-- The character that a letter behind a backslash stands for. -/
def escape? : Char → Option Char
  | '0' => some '\x00'
  | 'a' => some '\x07'
  | 'b' => some '\x08'
  | 't' => some '\t'
  | '\t' => some '\t'
  | 'n' => some '\n'
  | 'v' => some '\x0b'
  | 'f' => some '\x0c'
  | 'r' => some '\r'
  | 'e' => some '\x1b'
  | ' ' => some ' '
  | '"' => some '"'
  | '/' => some '/'
  | '\\' => some '\\'
  | 'N' => some '\u0085'
  | '_' => some '\u00a0'
  | 'L' => some '\u2028'
  | 'P' => some '\u2029'
  | _ => none

/-- The number of digits of a character code behind a backslash and this letter. -/
def codeLength? : Char → Option Nat
  | 'x' => some 2
  | 'u' => some 4
  | 'U' => some 8
  | _ => none

/-- The character of a code in base sixteen. -/
def charOfCode? (digits : List Char) : Option Char :=
  match Plain.numeral? 16 digits with
  | some n => if n.isValidChar then some (Char.ofNat n) else none
  | none => none

def doubleQuotedWord : Nat → Cursor → Option QuotedWord
  | 0, _ => none
  | fuel + 1, c =>
    match c.rest with
    | [] => some { chars := [], after := c }
    | '\\' :: rest =>
      match c.skip.lineBreak?, rest with
      | some (_, after), _ => some { chars := [], after := after, escapedBreak := true }
      | none, [] => none
      | none, letter :: digits =>
        let behind := c.skip.skip
        match escape? letter, codeLength? letter with
        | some e, _ => (doubleQuotedWord fuel behind).map (·.push e)
        | none, some width =>
          if (digits.take width).length < width then none
          else
            match charOfCode? (digits.take width) with
            | some e => (doubleQuotedWord fuel (behind.skipMany width)).map (·.push e)
            | none => none
        | none, none => none
    | d :: _ =>
      if d == '"' || isBlank d || isBreak d then some { chars := [], after := c }
      else (doubleQuotedWord fuel c.skip).map (·.push d)

def quotedWord (isSingle : Bool) (c : Cursor) : Option QuotedWord :=
  if isSingle then some (singleQuotedWord c.mark c.rest)
  else doubleQuotedWord (c.rest.length + 1) c

/-- The rest of a quoted text, behind the opening quote or a gap. -/
def quotedFrom (isSingle : Bool) : Nat → Cursor → Option (List Char × Cursor)
  | 0, _ => none
  | fuel + 1, c =>
    if c.mark.column == 0 && isDocumentMark c.rest || c.rest.isEmpty then none
    else
      match quotedWord isSingle c with
      | none => none
      | some word =>
        if word.after.rest.head? == some (if isSingle then '\'' else '"') then
          some (word.chars, word.after.skip)
        else
          let gap := Gap.read 0 word.escapedBreak word.after.mark word.after.rest
          let between := if word.escapedBreak then gap.breaks else gap.folded
          (quotedFrom isSingle fuel gap.after).map fun (chars, after) =>
            (word.chars ++ between ++ chars, after)

def quotedText (isSingle : Bool) (c : Cursor) : Option (List Char × Cursor) :=
  quotedFrom isSingle (c.rest.length + 1) c.skip

/-! ## Block texts -/

/-- What happens to the line breaks at the end of a block text. -/
inductive Chomping where
  /-- None stays. -/
  | strip
  /-- One stays. -/
  | clip
  /-- All stay. -/
  | keep
deriving Repr, DecidableEq

/-- The sign of a way to treat the last line breaks. -/
def chomping? : Char → Option Chomping
  | '+' => some .keep
  | '-' => some .strip
  | _ => none

/-- The first line of a block text behind its mark: sign and indentation in either order, and the
cursor at the next line. -/
def blockHeader (c : Cursor) : Option (Chomping × Option Nat × Cursor) :=
  let digit? := fun (d : Char) => if d.isDigit then some (d.toNat - '0'.toNat) else none
  let (chomping, increment, after) :=
    match c.rest with
    | a :: b :: _ =>
      match chomping? a, digit? b, digit? a, chomping? b with
      | some sign, some n, _, _ => (sign, some n, c.skip.skip)
      | some sign, none, _, _ => (sign, none, c.skip)
      | none, _, some n, some sign => (sign, some n, c.skip.skip)
      | none, _, some n, none => (.clip, some n, c.skip)
      | none, _, none, _ => (.clip, none, c)
    | [a] =>
      match chomping? a, digit? a with
      | some sign, _ => (sign, none, c.skip)
      | none, some n => (.clip, some n, c.skip)
      | none, none => (.clip, none, c)
    | [] => (.clip, none, c)
  if increment == some 0 then none
  else after.skipLineEnd?.map fun next => (chomping, increment, next)

/-- Empty lines before a line of a block text: their line breaks, the widest indentation seen, and
the cursor at the line. -/
structure Margin where
  breaks : List Char
  widest : Nat
  after : Cursor

/-- The margin at a mark. Without `indent`, all spaces count as indentation; a tab must not. -/
def margin (indent : Option Nat) (widest : Nat) (m : Mark) : List Char → Option Margin
  | [] => some ⟨[], max widest m.column, ⟨m, []⟩⟩
  | ' ' :: rest =>
    if indent.all (m.column < ·) then margin indent widest m.next rest
    else some ⟨[], max widest m.column, ⟨m, ' ' :: rest⟩⟩
  | '\r' :: '\n' :: rest =>
    (margin indent (max widest m.column) (m.nextLine 2) rest).map fun found =>
      { found with breaks := '\n' :: found.breaks }
  | c :: rest =>
    if c == '\t' && indent.all (m.column < ·) then none
    else if isBreak c then
      let counted := if c == '\u2028' || c == '\u2029' then c else '\n'
      (margin indent (max widest m.column) (m.nextLine 1) rest).map fun found =>
        { found with breaks := counted :: found.breaks }
    else some ⟨[], max widest m.column, ⟨m, c :: rest⟩⟩

/-- The lines of a block text from a margin on. `pending` is the line break before the margin, and
`isIndented` says that the line before it starts with a blank. -/
def blockLines (isLiteral : Bool) (chomping : Chomping) (indent : Nat) :
    Nat → (pending : List Char) → (isIndented : Bool) → Margin → Option (List Char × Cursor)
  | 0, _, _, _ => none
  | fuel + 1, pending, isIndented, space =>
    let start := space.after
    if start.mark.column == indent && !start.rest.isEmpty then
      let startsBlank := start.rest.head?.any isBlank
      let joint :=
        if !isLiteral && pending == ['\n'] && !isIndented && !startsBlank then
          if space.breaks.isEmpty then [' '] else space.breaks
        else pending ++ space.breaks
      let line := start.rest.takeWhile (!isBreak ·)
      let atBreak := start.skipWhile (!isBreak ·)
      let (ending, next) := match atBreak.lineBreak? with
        | some (counted, after) => ([counted], after)
        | none => ([], atBreak)
      match margin (some indent) 0 next.mark next.rest with
      | none => none
      | some following =>
        (blockLines isLiteral chomping indent fuel ending startsBlank following).map
          fun (chars, after) => (joint ++ line ++ chars, after)
    else
      match chomping with
      | .strip => some ([], start)
      | .clip => some (pending, start)
      | .keep => some (pending ++ space.breaks, start)

/-- A block text behind its mark, inside a collection whose entries are at the column `around`. -/
def blockText (isLiteral : Bool) (around : Int) (c : Cursor) : Option (List Char × Cursor) :=
  match blockHeader c with
  | none => none
  | some (chomping, increment, start) =>
    let given := increment.map fun n => around.toNat + n
    match margin given 0 start.mark start.rest with
    | none => none
    | some space =>
      let indent := given.getD (max (max space.widest (around + 1).toNat) 1)
      blockLines isLiteral chomping indent (c.rest.length + 1) [] false space

end Yaml
end EdmCommands
