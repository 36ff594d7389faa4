import EdmCommands.Doc.Plain

/-!
# EdmCommands.Doc.Decode

Decoders from document trees to values. A `Decoder` takes the dialect of its tree into account; a
`Record` decodes the fields of a record, given by name in a map or, in JSON, by position in a
sequence.

* `text`, `boolean`, `count`, `list`, `optional`: the decoders of plain values.
* `variant`: a choice among named alternatives, with or without content.
* `Record`: an applicative of fields. Fields are decoded in the order of the document and missing
  ones are noticed at its end, in the order of the declaration.
-/

namespace EdmCommands

abbrev Decoder (α : Type) : Type :=
  Dialect → Doc → Except DocFault α

namespace Decode

/-- A text. An unquoted one counts as its source text. -/
def text : Decoder String := fun dialect d =>
  match d.untagged with
  | .text s => .ok s
  | .plain s => .ok s
  | _ => d.mismatch dialect .text

/-- A boolean, which YAML writes without quotes. -/
def boolean : Decoder Bool := fun dialect d =>
  match d.untagged with
  | .bool b => .ok b
  | .plain s =>
    match Plain.bool? s with
    | some b => .ok b
    | none => d.mismatch dialect .boolean
  | _ => d.mismatch dialect .boolean

/-- A natural number of at most 64 bits. -/
def count : Decoder Nat := fun dialect d =>
  match d.untagged with
  | .integer i =>
    if 0 ≤ i && i < Int.pow 2 64 then .ok i.toNat
    else if i < 0 then .error (.shape (.invalidValue (.integer i) .count))
    else d.mismatch dialect .count
  | .plain s =>
    match Plain.natural? (Nat.pow 2 64) s with
    | some n => .ok n
    | none => d.mismatch dialect .count
  | _ => d.mismatch dialect .count

/-- Each item in turn, up to the first fault. -/
def items {α : Type} (decode : Decoder α) (dialect : Dialect) :
    List Doc → Except DocFault (List α)
  | [] => .ok []
  | item :: rest =>
    match decode dialect item with
    | .error fault => .error fault
    | .ok value =>
      match items decode dialect rest with
      | .error fault => .error fault
      | .ok values => .ok (value :: values)

/-- A sequence. An empty unquoted text is an empty one. -/
def list {α : Type} (decode : Decoder α) : Decoder (List α) := fun dialect d =>
  match d.untagged with
  | .seq elements => items decode dialect elements
  | .plain "" => .ok []
  | _ => d.mismatch dialect .sequence

/-- A value that may be null. -/
def optional {α : Type} (decode : Decoder α) : Decoder (Option α)
  | _, .null => .ok none
  | dialect, .plain s =>
    if s.isEmpty || Plain.isNull s then .ok none
    else (decode dialect (.plain s)).map some
  | _, .tagged "tag:yaml.org,2002:null" (.plain s) =>
    if Plain.isNull s then .ok none
    else .error (.shape (.invalidValue (.text s) .null))
  | dialect, d => (decode dialect d).map some

/-- The content of an alternative that has none. -/
def unit : Decoder Unit
  | _, .null => .ok ()
  | dialect, .plain s =>
    if s.isEmpty || Plain.isNull s then .ok () else Doc.mismatch dialect .unit (.plain s)
  | dialect, d => d.mismatch dialect .unit

/-- An alternative among `known`: its name, and its content when it comes with one. -/
def variant {α : Type} (known : List String) (choose : String → Option Doc → Except DocFault α) :
    Decoder α := fun dialect d =>
  let named := fun (name : String) (content : Option Doc) =>
    if known.contains name then choose name content
    else .error (.shape (.unknownVariant name known))
  match dialect, d with
  | _, .text s => named s none
  | .yaml, .plain s => named s none
  | .yaml, .tagged tag content =>
    match tag.toList with
    | '!' :: name => named (String.ofList name) (some content)
    | _ =>
      match content with
      | .text s => named s none
      | .plain s => named s none
      | other => other.mismatch .yaml .tag
  | .yaml, d => d.mismatch .yaml .tag
  | dialect, .map ((key, content) :: rest) =>
    if dialect == .value && !rest.isEmpty then
      .error (.shape (.invalidValue .map .singleKeyMap))
    else
      match text dialect key with
      | .error fault => .error fault
      | .ok name =>
        match named name (some content), rest with
        | .error fault, _ => .error fault
        | .ok value, [] => .ok value
        | .ok _, _ :: _ => .error .malformed
  | .value, .map [] => .error (.shape (.invalidValue .map .singleKeyMap))
  | .value, d => d.mismatch .value .textOrMap
  | .json, _ => .error .malformed

/-- One of several names that have no content. -/
def enumeration {α : Type} (known : List String) (ofName? : String → Option α) : Decoder α :=
  fun dialect d =>
    variant known
      (fun name content =>
        match ofName? name, content with
        | some value, none => .ok value
        | some value, some inner => (unit dialect inner).map fun _ => value
        | none, _ => .error (.shape (.unknownVariant name known)))
      dialect d

/-- The content of an alternative that must have one. -/
def content {α : Type} (decode : Decoder α) (dialect : Dialect) :
    Option Doc → Except DocFault α
  | some d => decode dialect d
  | none => .error (.wrongType .unitVariant .contentVariant)

end Decode

/-- The fields of a record: how a field found in a document fills its slot, and how the filled
slots make the record. `absent` gives the fault of a field that was required and not found. -/
structure Record (α : Type) where
  Slots : Type
  names : List String
  empty : Slots
  put : Dialect → String → Doc → Slots → Except DocFault Slots
  finish : (absent : String → DocFault) → (byName : Bool) → Slots → Except DocFault α

namespace Record

/-- One field; `missing` is its value when the document does not have it. -/
def field {α : Type} (name : String) (decode : Decoder α)
    (missing : (byName : Bool) → Option α) : Record α where
  Slots := Option α
  names := [name]
  empty := none
  put := fun dialect _ d slot =>
    match slot with
    | some _ => .error (.shape (.duplicateField name))
    | none => (decode dialect d).map some
  finish := fun absent byName slot =>
    match slot with
    | some value => .ok value
    | none =>
      match missing byName with
      | some value => .ok value
      | none => .error (absent name)

def required {α : Type} (name : String) (decode : Decoder α) : Record α :=
  field name decode fun _ => none

/-- A field with a value of its own when it is not there. -/
def defaulted {α : Type} (name : String) (decode : Decoder α) (value : α) : Record α :=
  field name decode fun _ => some value

/-- A field that may be null, and may be left out of a map. -/
def nullable {α : Type} (name : String) (decode : Decoder α) : Record (Option α) :=
  field name (Decode.optional decode) fun byName => if byName then some none else none

instance : Applicative Record where
  pure value :=
    { Slots := Unit
      names := []
      empty := ()
      put := fun _ _ _ slots => .ok slots
      finish := fun _ _ _ => .ok value }
  seq f argument :=
    let x := argument ()
    { Slots := f.Slots × x.Slots
      names := f.names ++ x.names
      empty := (f.empty, x.empty)
      put := fun dialect name d slots =>
        if f.names.contains name then
          (f.put dialect name d slots.1).map fun s => (s, slots.2)
        else (x.put dialect name d slots.2).map fun s => (slots.1, s)
      finish := fun absent byName slots =>
        match f.finish absent byName slots.1 with
        | .error fault => .error fault
        | .ok g => (x.finish absent byName slots.2).map g }

variable {α : Type}

/-- The slots after the entries of a map; unknown fields are passed over. -/
def putEntries (r : Record α) (dialect : Dialect) :
    List (Doc × Doc) → r.Slots → Except DocFault r.Slots
  | [], slots => .ok slots
  | (key, value) :: rest, slots =>
    match key.untagged with
    | .text name | .plain name =>
      if r.names.contains name then
        match r.put dialect name value slots with
        | .error fault => .error fault
        | .ok filled => r.putEntries dialect rest filled
      else if value.isWhole then r.putEntries dialect rest slots
      else .error .malformed
    | other => other.mismatch dialect .fieldName

/-- The slots after the items of a sequence, by position. -/
def putItems (r : Record α) (dialect : Dialect) :
    List String → List Doc → r.Slots → Except DocFault r.Slots
  | name :: names, item :: rest, slots =>
    match r.put dialect name item slots with
    | .error fault => .error fault
    | .ok filled => r.putItems dialect names rest filled
  | _, _, slots => .ok slots

/-- The record whose fields stand in a sequence, in their order. -/
def decodeItems (typeName : String) (r : Record α) (dialect : Dialect) (elements : List Doc) :
    Except DocFault α :=
  match r.putItems dialect r.names elements r.empty with
  | .error fault => .error fault
  | .ok slots =>
    let position := fun (name : String) =>
      .shape (.invalidLength (r.names.idxOf name) (.fields typeName r.names.length))
    match r.finish position false slots with
    | .error fault => .error fault
    | .ok value =>
      if elements.length ≤ r.names.length then .ok value
      else if dialect == .json then .error .malformed
      else .error (.shape (.invalidLength elements.length .fewerElements))

/-- The record as a map, or in JSON as a sequence of its fields. -/
def decode (typeName : String) (r : Record α) : Decoder α := fun dialect d =>
  match d.untagged with
  | .map entries =>
    match r.putEntries dialect entries r.empty with
    | .error fault => .error fault
    | .ok slots => r.finish (fun name => .shape (.missingField name)) true slots
  | .seq elements =>
    if dialect == .yaml then .error (.wrongType .seq (.record typeName))
    else r.decodeItems typeName dialect elements
  | .plain "" => r.finish (fun name => .shape (.missingField name)) true r.empty
  | _ => d.mismatch dialect (.record typeName)

end Record

end EdmCommands
