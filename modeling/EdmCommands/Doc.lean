import EdmCommands.Text.Quoted

/-!
# EdmCommands.Doc

The tree of a document, as the readers of JSON and YAML deliver it, and the ways in which its
shape can differ from what is wanted. A reader never fails: where the text stops making sense it
leaves a `broken` leaf and ends, so that what stands before the break can still be judged. A
fault of shape before the break is therefore reported before the break itself.

* `Doc`: the tree.
* `Dialect`: the three sources of a tree, which differ in a few rules.
* `ShapeFault` and its `message`: what can be wrong with a tree.
* `DocFault`: a fault of shape, or a text that is no document.
-/

namespace EdmCommands

inductive Doc where
  | null
  | bool (value : Bool)
  | integer (value : Int)
  /-- A number with a fraction or out of integer range, as its shortest decimal. -/
  | number (text : String)
  /-- A text in quotes. -/
  | text (value : String)
  /-- A text without quotes, which may also stand for a number, a boolean or nothing. -/
  | plain (value : String)
  | tagged (tag : String) (content : Doc)
  | seq (items : List Doc)
  | map (entries : List (Doc × Doc))
  /-- A leaf that is well formed but has no value. -/
  | unusable
  /-- The place where the text stops being a document. -/
  | broken
deriving Repr, Inhabited

/-- Where a tree comes from. -/
inductive Dialect where
  /-- The text of a JSON document. -/
  | json
  /-- A JSON value in memory. -/
  | value
  /-- The text of a YAML document. -/
  | yaml
deriving Repr, DecidableEq

/-- What a tree holds where something else is wanted. -/
inductive Found where
  | bool (value : Bool)
  | integer (value : Int)
  | wideInteger (value : Int)
  | number (text : String)
  | text (value : String)
  | null
  | unitValue
  | seq
  | map
  | unitVariant
deriving Repr, DecidableEq

/-- What a tree should hold. -/
inductive Wanted where
  | text
  | boolean
  | sequence
  | count
  | integer
  | number
  | unit
  | null
  | textOrMap
  | singleKeyMap
  | contentVariant
  | tag
  | fieldName
  | record (name : String)
  | fields (name : String) (size : Nat)
  | fewerElements
deriving Repr, DecidableEq

inductive ShapeFault where
  | missingField (name : String)
  | duplicateField (name : String)
  | unknownVariant (name : String) (known : List String)
  | invalidType (found : Found) (wanted : Wanted)
  | invalidValue (found : Found) (wanted : Wanted)
  | invalidLength (length : Nat) (wanted : Wanted)
deriving Repr, DecidableEq

inductive DocFault where
  /-- The text is no document of its format. -/
  | malformed
  | shape (fault : ShapeFault)
deriving Repr, DecidableEq

namespace Found

def message : Found → String
  | .bool b => "boolean `" ++ (if b then "true" else "false") ++ "`"
  | .integer i => "integer `" ++ toString i ++ "`"
  | .wideInteger i => "integer `" ++ toString i ++ "` as " ++ (if i < 0 then "i128" else "u128")
  | .number t => "floating point `" ++ t ++ "`"
  | .text s => "string " ++ Text.quoted s
  | .null => "null"
  | .unitValue => "unit value"
  | .seq => "sequence"
  | .map => "map"
  | .unitVariant => "unit variant"

end Found

namespace Wanted

def message : Wanted → String
  | .text => "a string"
  | .boolean => "a boolean"
  | .sequence => "a sequence"
  | .count => "usize"
  | .integer => "an integer"
  | .number => "a float"
  | .unit => "unit"
  | .null => "null"
  | .textOrMap => "string or map"
  | .singleKeyMap => "map with a single key"
  | .contentVariant => "newtype variant"
  | .tag => "a YAML tag starting with '!'"
  | .fieldName => "field identifier"
  | .record name => "struct " ++ name
  | .fields name size =>
    "struct " ++ name ++ " with " ++ toString size ++
      (if size == 1 then " element" else " elements")
  | .fewerElements => "fewer elements in array"

end Wanted

namespace ShapeFault

/-- The names between backquotes, as a message lists them. -/
def expectedNames : List String → String
  | [] => "there are no variants"
  | [a] => "expected `" ++ a ++ "`"
  | [a, b] => "expected `" ++ a ++ "` or `" ++ b ++ "`"
  | names => "expected one of " ++ ", ".intercalate (names.map fun n => "`" ++ n ++ "`")

def message : ShapeFault → String
  | .missingField name => "missing field `" ++ name ++ "`"
  | .duplicateField name => "duplicate field `" ++ name ++ "`"
  | .unknownVariant name known => "unknown variant `" ++ name ++ "`, " ++ expectedNames known
  | .invalidType found wanted =>
    "invalid type: " ++ found.message ++ ", expected " ++ wanted.message
  | .invalidValue found wanted =>
    "invalid value: " ++ found.message ++ ", expected " ++ wanted.message
  | .invalidLength length wanted =>
    "invalid length " ++ toString length ++ ", expected " ++ wanted.message

end ShapeFault

namespace DocFault

def message (heading : String) : DocFault → String
  | .malformed => heading
  | .shape fault => heading ++ ": " ++ fault.message

def wrongType (found : Found) (wanted : Wanted) : DocFault :=
  .shape (.invalidType found wanted)

end DocFault

namespace Doc

mutual

/-- Whether the tree has no broken leaf. -/
def isWhole : Doc → Bool
  | .broken => false
  | .tagged _ content => content.isWhole
  | .seq items => allWhole items
  | .map entries => allWholeEntries entries
  | _ => true

def allWhole : List Doc → Bool
  | [] => true
  | item :: rest => item.isWhole && allWhole rest

def allWholeEntries : List (Doc × Doc) → Bool
  | [] => true
  | (key, value) :: rest => key.isWhole && value.isWhole && allWholeEntries rest

end

def untagged : Doc → Doc
  | .tagged _ content => content.untagged
  | d => d

end Doc

end EdmCommands
