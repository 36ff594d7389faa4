import EdmCommands.Doc.Decode

/-!
# EdmCommands.Json.Reader

JSON text read into a document tree. Reading stops at the first character that fits nowhere and
leaves a broken leaf there; a text with a lone surrogate, a number out of range and what is nested
too deep are well formed but have no value. A whole text may not go on behind its value.

* `Reader.value`: a value and the rest of the text, unless the text broke inside it.
* `Reader.cut`: the tree without what is nested too deep.
* `Json.decodeText`: a value decoded from the text of a whole document.
-/

namespace EdmCommands
namespace Json
namespace Reader

/-- Whether the character may stand between the parts of a text. -/
def isSpace (c : Char) : Bool :=
  c == ' ' || c == '\n' || c == '\t' || c == '\r'

/-- The text from its first part on. -/
def skipSpace (cs : List Char) : List Char :=
  cs.dropWhile isSpace

def hex4? (a b c d : Char) : Option Nat :=
  match Plain.digit? a, Plain.digit? b, Plain.digit? c, Plain.digit? d with
  | some a, some b, some c, some d => some (((a * 16 + b) * 16 + c) * 16 + d)
  | _, _, _, _ => none

def escape? : Char → Option Char
  | '"' => some '"'
  | '\\' => some '\\'
  | '/' => some '/'
  | 'b' => some '\x08'
  | 'f' => some '\x0c'
  | 'n' => some '\n'
  | 'r' => some '\r'
  | 't' => some '\t'
  | _ => none

/-- Whether the code is the first half of a surrogate pair. -/
def isHighSurrogate (n : Nat) : Bool :=
  0xD800 ≤ n && n ≤ 0xDBFF

/-- Whether the code is the second half of a surrogate pair. -/
def isLowSurrogate (n : Nat) : Bool :=
  0xDC00 ≤ n && n ≤ 0xDFFF

/-- What stands between two quotes: its characters, or nothing when a surrogate is alone. -/
abbrev Body : Type :=
  Option (List Char)

/-- The characters up to the closing quote, and the rest behind it. `none` is a text that breaks
off or has an escape that does not exist. -/
def textBody : List Char → Option (Body × List Char)
  | [] => none
  | '"' :: rest => some (some [], rest)
  | '\\' :: 'u' :: a :: b :: c :: d :: '\\' :: 'u' :: e :: f :: g :: h :: rest =>
    match hex4? a b c d with
    | none => none
    | some high =>
      match hex4? e f g h with
      | some low =>
        if isHighSurrogate high && isLowSurrogate low then
          (textBody rest).map fun (body, after) =>
            let code := 0x10000 + (high - 0xD800) * 0x400 + (low - 0xDC00)
            (body.map (Char.ofNat code :: ·), after)
        else
          (textBody ('\\' :: 'u' :: e :: f :: g :: h :: rest)).map fun (body, after) =>
            if isHighSurrogate high || isLowSurrogate high then (none, after)
            else (body.map (Char.ofNat high :: ·), after)
      | none => none
  | '\\' :: 'u' :: a :: b :: c :: d :: rest =>
    match hex4? a b c d with
    | none => none
    | some code =>
      (textBody rest).map fun (body, after) =>
        if isHighSurrogate code || isLowSurrogate code then (none, after)
        else (body.map (Char.ofNat code :: ·), after)
  | '\\' :: c :: rest =>
    match escape? c with
    | none => none
    | some e => (textBody rest).map fun (body, after) => (body.map (e :: ·), after)
  | c :: rest =>
    if c == '\\' || c.toNat < 0x20 then none
    else (textBody rest).map fun (body, after) => (body.map (c :: ·), after)

/-- The digits of a number as far as 64 bits hold them, and the decimal places they stand for. -/
structure Significand where
  digits : Nat
  exponent : Int
  /-- A digit did not fit, so that the ones behind it only count. -/
  full : Bool
deriving Repr, DecidableEq

def Significand.pushWhole (s : Significand) (digit : Nat) : Significand :=
  if s.full || s.digits * 10 + digit ≥ Nat.pow 2 64 then
    { s with exponent := s.exponent + 1, full := true }
  else { s with digits := s.digits * 10 + digit }

def Significand.pushFraction (s : Significand) (digit : Nat) : Significand :=
  if s.full || s.digits * 10 + digit ≥ Nat.pow 2 64 then { s with full := true }
  else { s with digits := s.digits * 10 + digit, exponent := s.exponent - 1 }

def digitValue (c : Char) : Nat :=
  c.toNat - '0'.toNat

/-- The number with the given digits and exponent by one multiplication or by divisions, unless it
is out of range. -/
def scaled? (fuel : Nat) (x : Float) (exponent : Int) : Option Float :=
  if exponent.natAbs ≤ 308 then
    let power := Float.ofScientific 1 false exponent.natAbs
    if 0 ≤ exponent then
      let y := x * power
      if y.isInf then none else some y
    else some (x / power)
  else if x == 0 then some x
  else if 0 ≤ exponent then none
  else
    match fuel with
    | 0 => some 0
    | fuel + 1 => scaled? fuel (x / Float.ofScientific 1 false 308) (exponent + 308)

/-- A number with a fraction or an exponent, as a leaf. -/
def fractional (negative : Bool) (s : Significand) (exponent : Int) : Doc :=
  match scaled? 8 (Float.ofNat s.digits) (s.exponent + exponent) with
  | some x => .number (Decimal.floatText (if negative then -x else x))
  | none => .unusable

/-- The exponent of a number and the rest behind it; no digit is a break. -/
def exponentPart (cs : List Char) : Option (Int × List Char) :=
  let (negative, digits) := match cs with
    | '-' :: rest => (true, rest)
    | '+' :: rest => (false, rest)
    | _ => (false, cs)
  match digits.takeWhile Char.isDigit with
  | [] => none
  | ds =>
    let n := ds.foldl (fun n c => n * 10 + digitValue c) 0
    some (if negative then -(Int.ofNat n) else Int.ofNat n, digits.dropWhile Char.isDigit)

/-- A number behind its sign, and the rest. -/
def number (negative : Bool) (cs : List Char) : Option (Doc × List Char) :=
  let whole := cs.takeWhile Char.isDigit
  let rest := cs.dropWhile Char.isDigit
  let isPlain := match whole with
    | [] => false
    | '0' :: _ :: _ => false
    | _ => true
  if !isPlain then none
  else
    let s := whole.foldl (fun s c => s.pushWhole (digitValue c)) (⟨0, 0, false⟩ : Significand)
    let withExponent := fun (s : Significand) (after : List Char) =>
      (exponentPart after).map fun (e, rest) => (fractional negative s e, rest)
    match rest with
    | '.' :: after =>
      let places := after.takeWhile Char.isDigit
      if places.isEmpty then none
      else
        let s := places.foldl (fun s c => s.pushFraction (digitValue c)) { s with full := false }
        match after.dropWhile Char.isDigit with
        | 'e' :: rest => withExponent s rest
        | 'E' :: rest => withExponent s rest
        | rest => some (fractional negative s 0, rest)
    | 'e' :: after => withExponent s after
    | 'E' :: after => withExponent s after
    | _ =>
      if s.full then some (fractional negative s 0, rest)
      else if !negative then some (.integer (Int.ofNat s.digits), rest)
      else if s.digits == 0 || s.digits > Nat.pow 2 63 then some (fractional true s 0, rest)
      else some (.integer (-(Int.ofNat s.digits)), rest)

/-- A word of the format, and the rest behind it. -/
def word (expected : String) (leaf : Doc) (cs : List Char) : Doc × Option (List Char) :=
  match expected.toList.isPrefixOf? cs with
  | some rest => (leaf, some rest)
  | none => (.broken, none)

mutual

/-- A value and the rest behind it; no rest when the text broke. -/
def value : Nat → List Char → Doc × Option (List Char)
  | 0, _ => (.broken, none)
  | fuel + 1, cs =>
    match skipSpace cs with
    | 'n' :: rest => word "ull" .null rest
    | 't' :: rest => word "rue" (.bool true) rest
    | 'f' :: rest => word "alse" (.bool false) rest
    | '"' :: rest =>
      match textBody rest with
      | some (some chars, after) => (.text (String.ofList chars), some after)
      | some (none, after) => (.unusable, some after)
      | none => (.broken, none)
    | '[' :: rest =>
      match skipSpace rest with
      | ']' :: after => (.seq [], some after)
      | _ =>
        let (found, after) := items fuel rest
        (.seq found, after)
    | '{' :: rest =>
      match skipSpace rest with
      | '}' :: after => (.map [], some after)
      | _ =>
        let (found, after) := entries fuel rest
        (.map found, after)
    | '-' :: rest =>
      match number true rest with
      | some (leaf, after) => (leaf, some after)
      | none => (.broken, none)
    | other =>
      match number false other with
      | some (leaf, after) => (leaf, some after)
      | none => (.broken, none)

def items : Nat → List Char → List Doc × Option (List Char)
  | 0, _ => ([.broken], none)
  | fuel + 1, cs =>
    match value fuel cs with
    | (item, none) => ([item], none)
    | (item, some rest) =>
      match skipSpace rest with
      | ']' :: after => ([item], some after)
      | ',' :: after =>
        let (found, after) := items fuel after
        (item :: found, after)
      | _ => ([item, .broken], none)

def entries : Nat → List Char → List (Doc × Doc) × Option (List Char)
  | 0, _ => ([(.broken, .broken)], none)
  | fuel + 1, cs =>
    match skipSpace cs with
    | '"' :: rest =>
      match textBody rest with
      | none => ([(.broken, .broken)], none)
      | some (body, after) =>
        let key := match body with
          | some chars => Doc.text (String.ofList chars)
          | none => .unusable
        match skipSpace after with
        | ':' :: content =>
          match value fuel content with
          | (v, none) => ([(key, v)], none)
          | (v, some rest) =>
            match skipSpace rest with
            | '}' :: after => ([(key, v)], some after)
            | ',' :: after =>
              let (found, after) := entries fuel after
              ((key, v) :: found, after)
            | _ => ([(key, v), (.broken, .broken)], none)
        | _ => ([(key, .broken)], none)
    | _ => ([(.broken, .broken)], none)

end

/-- The tree of a text, and whether nothing but space follows it. -/
def document (s : String) : Doc × Bool :=
  let cs := s.toList
  match value (2 * cs.length + 2) cs with
  | (root, some rest) => (root, (skipSpace rest).isEmpty)
  | (root, none) => (root, true)

/-- The most levels of arrays and objects that a value is made from. -/
def deepest : Nat := 127

mutual

/-- The tree with no value below so many levels. What is not asked for may nest deeper, as long as
it is well formed. -/
def cut : Nat → Doc → Doc
  | 0, .seq items => if Doc.allWhole items then .unusable else .broken
  | 0, .map entries => if Doc.allWholeEntries entries then .unusable else .broken
  | levels + 1, .seq items => .seq (cutItems levels items)
  | levels + 1, .map entries => .map (cutEntries levels entries)
  | _, d => d

def cutItems : Nat → List Doc → List Doc
  | _, [] => []
  | levels, item :: rest => cut levels item :: cutItems levels rest

def cutEntries : Nat → List (Doc × Doc) → List (Doc × Doc)
  | _, [] => []
  | levels, (key, value) :: rest => (key, cut levels value) :: cutEntries levels rest

end

end Reader

def decodeText {α : Type} (decode : Decoder α) (s : String) : Except DocFault α :=
  let (root, ends) := Reader.document s
  match decode .json (Reader.cut Reader.deepest root) with
  | .error fault => .error fault
  | .ok v => if ends then .ok v else .error .malformed

end Json
end EdmCommands
