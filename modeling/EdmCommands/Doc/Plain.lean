import EdmCommands.Doc
import EdmCommands.Decimal

/-!
# EdmCommands.Doc.Plain

What a text without quotes stands for: nothing, a boolean, an integer, a number, or itself.
Integers may have a sign and the marks `0x`, `0o` and `0b`; decimal digits after a leading zero are
a text. A field of text takes the source text whatever it stands for.
-/

namespace EdmCommands
namespace Plain

inductive Meaning where
  | nothing
  | bool (value : Bool)
  | integer (value : Int)
  | number (text : String)
  | text
deriving Repr, DecidableEq

/-- Whether the text is one of the spellings of null. The empty text is not one of them. -/
def isNull (s : String) : Bool :=
  ["null", "Null", "NULL", "~"].contains s

def bool? (s : String) : Option Bool :=
  if ["true", "True", "TRUE"].contains s then some true
  else if ["false", "False", "FALSE"].contains s then some false
  else none

/-- The value of a digit in bases up to sixteen. -/
def digit? (c : Char) : Option Nat :=
  if c.isDigit then some (c.toNat - '0'.toNat)
  else if 'a' ≤ c && c ≤ 'f' then some (c.toNat - 'a'.toNat + 10)
  else if 'A' ≤ c && c ≤ 'F' then some (c.toNat - 'A'.toNat + 10)
  else none

/-- The number that a list of digits spells; there must be at least one. -/
def numeral? (base : Nat) (cs : List Char) : Option Nat :=
  if cs.isEmpty then none
  else
    cs.foldl
      (fun acc c =>
        match acc, digit? c with
        | some n, some d => if d < base then some (n * base + d) else none
        | _, _ => none)
      (some 0)

/-- Whether the text is decimal digits behind a superfluous zero, with or without a sign. -/
def hasLeadingZero (cs : List Char) : Bool :=
  let digits := match cs with
    | '-' :: rest => rest
    | '+' :: rest => rest
    | _ => cs
  match digits with
  | '0' :: rest => !rest.isEmpty && rest.all Char.isDigit
  | _ => false

/-- The magnitude of an integer without a sign, in the base that its mark names. -/
def magnitude? (whole : List Char) : List Char → Option Nat
  | '0' :: 'x' :: rest => numeral? 16 rest
  | '0' :: 'o' :: rest => numeral? 8 rest
  | '0' :: 'b' :: rest => numeral? 2 rest
  | cs => if hasLeadingZero whole then none else numeral? 10 cs

/-- The natural number that the text spells, when it is below `limit`. -/
def natural? (limit : Nat) (s : String) : Option Nat :=
  let cs := s.toList
  let digits := match cs with
    | '+' :: rest => rest
    | _ => cs
  match magnitude? cs digits with
  | some n => if n < limit then some n else none
  | none => none

/-- The integer that the text spells, when it fits in 128 bits. -/
def integer? (s : String) : Option Int :=
  match natural? (Nat.pow 2 128) s with
  | some n => some (Int.ofNat n)
  | none =>
    match s.toList with
    | '-' :: rest =>
      match magnitude? ('-' :: rest) rest with
      | some n => if n ≤ Nat.pow 2 127 then some (-(Int.ofNat n)) else none
      | none => none
    | _ => none

/-- The digits of a number's mantissa and the number of them behind the point. -/
def mantissa? (cs : List Char) : Option (Nat × Nat) :=
  let whole := cs.takeWhile Char.isDigit
  match cs.dropWhile Char.isDigit with
  | [] => (numeral? 10 whole).map fun n => (n, 0)
  | '.' :: fraction =>
    if fraction.all Char.isDigit then
      (numeral? 10 (whole ++ fraction)).map fun n => (n, fraction.length)
    else none
  | _ => none

def exponent? (cs : List Char) : Option Int :=
  match cs with
  | '-' :: digits => (numeral? 10 digits).map fun n => -(Int.ofNat n)
  | '+' :: digits => (numeral? 10 digits).map Int.ofNat
  | digits => (numeral? 10 digits).map Int.ofNat

/-- The floating point number `digits * 10 ^ exponent`. -/
def scientific (digits : Nat) (exponent : Int) : Float :=
  Float.ofScientific digits (exponent < 0) exponent.natAbs

def unsignedNumber? (cs : List Char) : Option Float :=
  let isMark := fun (c : Char) => c == 'e' || c == 'E'
  let value := match mantissa? (cs.takeWhile (!isMark ·)), cs.dropWhile (!isMark ·) with
    | some (digits, places), [] => some (scientific digits (-(Int.ofNat places)))
    | some (digits, places), _ :: rest =>
      (exponent? rest).map fun e => scientific digits (e - Int.ofNat places)
    | none, _ => none
  value.filter Float.isFinite

/-- The number that the text spells, as its shortest decimal. -/
def number? (s : String) : Option String :=
  let cs := s.toList
  if [".inf", ".Inf", ".INF", "+.inf", "+.Inf", "+.INF"].contains s then some "inf"
  else if ["-.inf", "-.Inf", "-.INF"].contains s then some "-inf"
  else if [".nan", ".NaN", ".NAN"].contains s then some "NaN"
  else if hasLeadingZero cs then none
  else
    match cs with
    | '-' :: rest => (unsignedNumber? rest).map fun x => Decimal.floatText (-x)
    | '+' :: rest => (unsignedNumber? rest).map Decimal.floatText
    | _ => (unsignedNumber? cs).map Decimal.floatText

def meaning (s : String) : Meaning :=
  if s.isEmpty || isNull s then .nothing
  else
    match bool? s with
    | some b => .bool b
    | none =>
      match integer? s with
      | some i => .integer i
      | none =>
        match number? s with
        | some t => .number t
        | none => .text

/-- What a text without quotes holds. -/
def found (s : String) : Found :=
  match meaning s with
  | .nothing => .unitValue
  | .bool b => .bool b
  | .integer i => if -(Int.pow 2 63) ≤ i && i < Int.pow 2 64 then .integer i else .wideInteger i
  | .number t => .number t
  | .text => .text s

end Plain

namespace Doc

def coreTag (name : String) : String :=
  "tag:yaml.org,2002:" ++ name

/-- What a text with a tag holds. The tag of a core type asks for a value of that type, whether the
text is in quotes or not, and any other tag but a local one makes it a text. -/
def foundTagged (tag s : String) (isPlain : Bool) : Except DocFault Found :=
  let asked := fun (value : Option Found) (wanted : Wanted) =>
    match value with
    | some found => .ok found
    | none => .error (.shape (.invalidValue (.text s) wanted))
  if tag == coreTag "bool" then asked ((Plain.bool? s).map .bool) .boolean
  else if tag == coreTag "int" then
    asked ((Plain.integer? s).map fun _ => Plain.found s) .integer
  else if tag == coreTag "float" then asked ((Plain.number? s).map .number) .number
  else if tag == coreTag "null" then
    asked (if Plain.isNull s then some .unitValue else none) .null
  else if isPlain && tag.toList.head? == some '!' then .ok (Plain.found s)
  else .ok (.text s)

/-- What a tree holds, for a fault that names it. A text without quotes is judged by what it
stands for. -/
def found (dialect : Dialect) : Doc → Except DocFault Found
  | .null => .ok (if dialect == .yaml then .unitValue else .null)
  | .bool b => .ok (.bool b)
  | .integer i => .ok (.integer i)
  | .number t => .ok (.number t)
  | .text s => .ok (.text s)
  | .plain s => .ok (Plain.found s)
  | .tagged tag (.plain s) => foundTagged tag s true
  | .tagged tag (.text s) => foundTagged tag s false
  | .tagged _ content => content.found dialect
  | .seq _ => .ok .seq
  | .map _ => .ok .map
  | .unusable => .error .malformed
  | .broken => .error .malformed

/-- The fault of a tree that is not what is wanted. -/
def mismatch {α : Type} (dialect : Dialect) (wanted : Wanted) (d : Doc) : Except DocFault α :=
  match d.found dialect with
  | .ok found => .error (.wrongType found wanted)
  | .error fault => .error fault

end Doc

end EdmCommands
