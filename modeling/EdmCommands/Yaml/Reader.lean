import EdmCommands.Doc.Decode
import EdmCommands.Yaml.TokenStream

/-!
# EdmCommands.Yaml.Reader

YAML text read into a document tree. Unquoted texts keep their source, local tags stay on their
nodes, and an alias is replaced by what its anchor names. Where the text stops making sense there
is a broken leaf, and reading ends.

* `Reader.node`: a node and the state behind it, unless the text broke inside it.
* `Yaml.decodeText`: a value decoded from the only document of a text.
-/

namespace EdmCommands
namespace Yaml

/-- The reading of a document: the tokens to come, the anchored nodes in the order of their anchors,
and the handles of tags. -/
structure Reader where
  tokens : TokenStream
  anchors : Array (String × Doc) := #[]
  handles : List (String × String) := []

namespace Reader

/-- The next token, and the state that remembers it. -/
def peek (r : Reader) : Option (Token × Reader) :=
  r.tokens.peek.map fun (token, tokens) => (token, { r with tokens := tokens })

def drop (r : Reader) : Reader :=
  { r with tokens := r.tokens.drop }

/-- The node that an anchor names; the last anchor of a name counts. -/
def anchored? (r : Reader) (name : String) : Option Doc :=
  (r.anchors.findRev? (·.1 == name)).map (·.2)

/-- Gives a node a name, if it has an anchor. -/
def bind (r : Reader) (anchor : Option String) (d : Doc) : Reader :=
  match anchor with
  | some name => { r with anchors := r.anchors.push (name, d) }
  | none => r

/-- Puts a finished collection where an empty one was anchored when it began. -/
def complete (r : Reader) (anchor : Option String) (place : Nat) (d : Doc) : Reader :=
  match anchor with
  | some name => { r with anchors := r.anchors.set! place (name, d) }
  | none => r

/-- The whole text of a tag; its handle must be known. -/
def tagText? (r : Reader) (handle suffix : String) : Option String :=
  if handle.isEmpty then some suffix
  else
    match r.handles.lookup handle with
    | some uri => some (uri ++ suffix)
    | none =>
      if handle == "!" then some ("!" ++ suffix)
      else if handle == "!!" then some ("tag:yaml.org,2002:" ++ suffix)
      else none

/-- The anchor and the tag in front of a node, in either order, and the state behind them. -/
def properties (r : Reader) : Option (Option String × Option String × Reader) := do
  let (token, r) ← r.peek
  match token with
  | .anchor name =>
    let (token, r) ← r.drop.peek
    match token with
    | .tag handle suffix => return (some name, some (← r.tagText? handle suffix), r.drop)
    | _ => return (some name, none, r)
  | .tag handle suffix =>
    let tag ← r.tagText? handle suffix
    let (token, r) ← r.drop.peek
    match token with
    | .anchor name => return (some name, some tag, r.drop)
    | _ => return (none, some tag, r)
  | _ => return (none, none, r)

def withTag (tag : Option String) (d : Doc) : Doc :=
  match tag with
  | some t => .tagged t d
  | none => d

/-- A part of a document and the state behind it; no state when the text broke. -/
abbrev Result (α : Type) : Type :=
  α × Option Reader

/-- A node without parts. -/
def leaf (r : Reader) (anchor tag : Option String) (d : Doc) : Result Doc :=
  let whole := withTag tag d
  (whole, some (r.bind anchor whole))

/-- A collection, read by `parts` behind its first token. While it is read its anchor names an empty
collection. -/
def collection {α : Type} (make : List α → Doc) (parts : Reader → Result (List α)) (r : Reader)
    (anchor tag : Option String) : Result Doc :=
  let place := r.anchors.size
  match parts (r.bind anchor (withTag tag (make []))) with
  | (found, none) => (withTag tag (make found), none)
  | (found, some after) =>
    let whole := withTag tag (make found)
    (whole, some (after.complete anchor place whole))

/-- One part, and the parts behind it unless the text broke. -/
def followedBy {α : Type} (first : Result α) (rest : Reader → Result (List α)) :
    Result (List α) :=
  match first with
  | (part, none) => ([part], none)
  | (part, some r) =>
    let (others, after) := rest r
    (part :: others, after)

/-- A node, or an empty one before a token that cannot begin a node there. -/
def orEmpty (ends : Token → Bool) (read : Reader → Result Doc) (r : Reader) : Result Doc :=
  match r.peek with
  | none => (.broken, none)
  | some (token, r) => if ends token then (.plain "", some r) else read r

/-- An entry of a mapping, whose value is read behind the key. -/
def entry (key : Result Doc) (value : Reader → Result Doc) : Result (Doc × Doc) :=
  match key with
  | (.broken, none) => ((.broken, .broken), none)
  | (k, none) => ((k, .broken), none)
  | (k, some r) =>
    let (v, after) := value r
    ((k, v), after)

/-- The value of an entry: a node behind its mark, or an empty one. -/
def valueOf (ends : Token → Bool) (read : Reader → Result Doc) (r : Reader) : Result Doc :=
  match r.peek with
  | none => (.broken, none)
  | some (.value, r) => orEmpty ends read r.drop
  | some (_, r) => (.plain "", some r)

/-- The tokens before which a value of a block mapping is empty. -/
def endsBlockValue : Token → Bool
  | .key | .value | .blockEnd => true
  | _ => false

/-- The tokens before which an entry of a block sequence is empty. -/
def endsBlockItem : Token → Bool
  | .blockEntry | .blockEnd => true
  | _ => false

/-- The tokens before which an entry of a sequence without own indentation is empty. -/
def endsIndentlessItem : Token → Bool
  | .blockEntry | .key | .value | .blockEnd => true
  | _ => false

/-- The tokens before which a key in braces is empty. -/
def endsFlowKey : Token → Bool
  | .value | .flowEntry | .flowMappingEnd => true
  | _ => false

/-- The tokens before which a value in braces is empty. -/
def endsFlowValue : Token → Bool
  | .flowEntry | .flowMappingEnd => true
  | _ => false

/-- The tokens before which a value in brackets is empty. -/
def endsPairValue : Token → Bool
  | .flowEntry | .flowSequenceEnd => true
  | _ => false

mutual

/-- A node. `inBlock` admits block collections and `indentless` a block sequence at the indentation
of the mapping around it. -/
def node (inBlock indentless : Bool) : Nat → Reader → Result Doc
  | 0, _ => (.broken, none)
  | fuel + 1, r =>
    match r.peek with
    | none => (.broken, none)
    | some (.alias name, r) =>
      match r.anchored? name with
      | some d => (d, some r.drop)
      | none => (.broken, none)
    | some (_, r) =>
      match r.properties with
      | none => (.broken, none)
      | some (anchor, tag, r) =>
        match r.peek with
        | none => (.broken, none)
        | some (token, r) =>
          match token with
          | .plain text => leaf r.drop anchor tag (.plain text)
          | .quoted text => leaf r.drop anchor tag (.text text)
          | .flowSequenceStart =>
            collection .seq (flowItems true fuel) r.drop anchor tag
          | .flowMappingStart =>
            collection .map (flowEntries true fuel) r.drop anchor tag
          | .blockSequenceStart =>
            if inBlock then collection .seq (blockItems fuel) r.drop anchor tag
            else (.broken, none)
          | .blockMappingStart =>
            if inBlock then collection .map (blockEntries fuel) r.drop anchor tag
            else (.broken, none)
          | .blockEntry =>
            if indentless then collection .seq (indentlessItems fuel) r anchor tag
            else if anchor.isSome || tag.isSome then leaf r anchor tag (.plain "")
            else (.broken, none)
          | _ =>
            if anchor.isSome || tag.isSome then leaf r anchor tag (.plain "")
            else (.broken, none)

def blockItems : Nat → Reader → Result (List Doc)
  | 0, _ => ([.broken], none)
  | fuel + 1, r =>
    match r.peek with
    | some (.blockEntry, r) =>
      followedBy (orEmpty endsBlockItem (node true false fuel) r.drop) (blockItems fuel)
    | some (.blockEnd, r) => ([], some r.drop)
    | _ => ([.broken], none)

/-- The items of a block sequence that has the indentation of the mapping around it. -/
def indentlessItems : Nat → Reader → Result (List Doc)
  | 0, _ => ([.broken], none)
  | fuel + 1, r =>
    match r.peek with
    | some (.blockEntry, r) =>
      followedBy (orEmpty endsIndentlessItem (node true false fuel) r.drop) (indentlessItems fuel)
    | some (_, r) => ([], some r)
    | none => ([.broken], none)

def blockEntries : Nat → Reader → Result (List (Doc × Doc))
  | 0, _ => ([(.broken, .broken)], none)
  | fuel + 1, r =>
    match r.peek with
    | some (.key, r) =>
      let key := orEmpty endsBlockValue (node true true fuel) r.drop
      followedBy (entry key (valueOf endsBlockValue (node true true fuel))) (blockEntries fuel)
    | some (.blockEnd, r) => ([], some r.drop)
    | _ => ([(.broken, .broken)], none)

/-- The items between brackets; a comma goes before each but the first. An item with a key is a
mapping of one entry. -/
def flowItems (isFirst : Bool) : Nat → Reader → Result (List Doc)
  | 0, _ => ([.broken], none)
  | fuel + 1, r =>
    match r.peek with
    | none => ([.broken], none)
    | some (.flowSequenceEnd, r) => ([], some r.drop)
    | some (token, r) =>
      let start := if isFirst then some r else if token = .flowEntry then some r.drop else none
      match start.bind peek with
      | none => ([.broken], none)
      | some (.flowSequenceEnd, r) => ([], some r.drop)
      | some (.key, r) => followedBy (flowPair fuel r.drop) (flowItems false fuel)
      | some (_, r) => followedBy (node false false fuel r) (flowItems false fuel)

/-- A mapping of one entry between brackets, behind the mark of its key. A key that is not there
takes the next token with it. -/
def flowPair : Nat → Reader → Result Doc
  | 0, _ => (.broken, none)
  | fuel + 1, r =>
    let key := match r.peek with
      | none => (.broken, none)
      | some (token, r) =>
        if token = .value || endsPairValue token then (.plain "", some r.drop)
        else node false false fuel r
    let (pair, after) := entry key (valueOf endsPairValue (node false false fuel))
    (.map [pair], after)

/-- The entries between braces; a comma goes before each but the first. -/
def flowEntries (isFirst : Bool) : Nat → Reader → Result (List (Doc × Doc))
  | 0, _ => ([(.broken, .broken)], none)
  | fuel + 1, r =>
    match r.peek with
    | none => ([(.broken, .broken)], none)
    | some (.flowMappingEnd, r) => ([], some r.drop)
    | some (token, r) =>
      let start := if isFirst then some r else if token = .flowEntry then some r.drop else none
      match start.bind peek with
      | none => ([(.broken, .broken)], none)
      | some (.flowMappingEnd, r) => ([], some r.drop)
      | some (.key, r) =>
        let key := orEmpty endsFlowKey (node false false fuel) r.drop
        followedBy (entry key (valueOf endsFlowValue (node false false fuel)))
          (flowEntries false fuel)
      | some (_, r) =>
        let key := node false false fuel r
        followedBy (entry key fun r => orEmpty (fun _ => true) (node false false fuel) r)
          (flowEntries false fuel)

end

/-! ## Documents -/

def directives (hasVersion : Bool) : Nat → Reader → Option Reader
  | 0, _ => none
  | fuel + 1, r =>
    match r.peek with
    | some (.version major minor, r) =>
      if hasVersion || major ≠ 1 || (minor ≠ 1 && minor ≠ 2) then none
      else directives true fuel r.drop
    | some (.handle name uri, r) =>
      if (r.handles.lookup name).isSome then none
      else directives hasVersion fuel { r.drop with handles := (name, uri) :: r.handles }
    | some (_, r) => some r
    | none => none

def isBetweenDocuments : Token → Bool
  | .version _ _ | .handle _ _ | .documentStart | .documentEnd | .streamEnd => true
  | _ => false

/-- The root of a document, which is empty in an empty text. -/
def root (fuel : Nat) (r : Reader) : Result Doc :=
  match r.peek with
  | none => (.broken, none)
  | some (.streamEnd, r) => (.plain "", some r)
  | some (token, r) =>
    if isBetweenDocuments token && token ≠ .documentEnd then
      match (r.directives false fuel).bind peek with
      | some (.documentStart, r) => orEmpty isBetweenDocuments (node true false fuel) r.drop
      | _ => (.broken, none)
    else node true false fuel r

/-- Whether nothing follows but the end of the document. -/
def endsHere : Nat → Reader → Bool
  | 0, _ => false
  | fuel + 1, r =>
    match r.peek with
    | some (.documentEnd, r) => endsHere fuel r.drop
    | some (.streamEnd, _) => true
    | _ => false

end Reader

/-- Whether the character may stand in a text at all. -/
def isPrintable (c : Char) : Bool :=
  let n := c.toNat
  c == '\t' || c == '\n' || c == '\r' || (0x20 ≤ n && n ≤ 0x7E) || n == 0x85 ||
    (0xA0 ≤ n && n ≤ 0xFFFD) || 0x10000 ≤ n

/-- The tree of a text, and whether nothing follows it. A mark of the byte order in front does not
count. -/
def document (s : String) : Doc × Bool :=
  let cs := match s.toList with
    | '\ufeff' :: rest => rest
    | cs => cs
  if !cs.all isPrintable then (.broken, true)
  else
    let fuel := 8 * cs.length + 16
    let start : Reader := { tokens := TokenStream.ofText cs }
    match Reader.root fuel start.drop with
    | (d, some after) => (d, after.endsHere fuel)
    | (d, none) => (d, true)

def decodeText {α : Type} (decode : Decoder α) (s : String) : Except DocFault α :=
  let (root, ends) := document s
  match decode .yaml root with
  | .error fault => .error fault
  | .ok v => if ends then .ok v else .error .malformed

end Yaml
end EdmCommands
