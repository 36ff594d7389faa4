import EdmCommands.Doc.Decode
import EdmCommands.Schema.Basic

/-!
# EdmCommands.Document

The schema document: the content of a schema file, in which types are still named. Fields that a
document leaves out have the values given here.

* `Document`: a namespace, a container, classes and enumerations.
* `Document.decode` and the decoders of its parts.
-/

namespace EdmCommands

namespace Document

open Schema (Capabilities ClassKind MethodKind)

structure PropertyEntry where
  name : String
  typeName : String
  isCollection : Bool := false
  isComputed : Bool := false
  isImmutable : Bool := false
  isReference : Bool := false
  nullable : Bool := true
  capabilities : Capabilities := {}
  description : Option String := none
deriving Repr, DecidableEq

structure ContainerEntry where
  name : String
  properties : List PropertyEntry := []
deriving Repr, DecidableEq

structure ParameterEntry where
  name : String
  typeName : String
  isCollection : Bool := false
  nullable : Bool := true
deriving Repr, DecidableEq

structure ReturnEntry where
  typeName : String
  isCollection : Bool := false
deriving Repr, DecidableEq

structure MethodEntry where
  name : String
  kind : MethodKind
  boundToCollection : Bool := false
  parameters : List ParameterEntry := []
  returns : Option ReturnEntry := none
  description : Option String := none
deriving Repr, DecidableEq

structure ClassEntry where
  name : String
  kind : ClassKind := .entity
  base : Option String := none
  isAbstract : Bool := false
  key : Option String := none
  properties : List PropertyEntry := []
  methods : List MethodEntry := []
  description : Option String := none
deriving Repr, DecidableEq

structure EnumEntry where
  name : String
  members : List String := []
  isFlags : Bool := false
deriving Repr, DecidableEq

end Document

structure Document where
  namespaceName : String
  container : Document.ContainerEntry
  classes : List Document.ClassEntry := []
  enums : List Document.EnumEntry := []
deriving Repr, DecidableEq

namespace Document

open Schema (Capabilities ClassKind MethodKind)
open Record (required defaulted)
open Decode (text boolean)

/-- A field of text that may be null or missing. -/
def optionalText (name : String) : Record (Option String) :=
  defaulted name (Decode.optional text) none

/-- The flags of a property; one that is missing allows. -/
def capabilities : Decoder Capabilities :=
  Record.decode "Capabilities" <|
    Capabilities.mk
      <$> defaulted "insert" boolean true
      <*> defaulted "update" boolean true
      <*> defaulted "delete" boolean true
      <*> defaulted "update_link" boolean true
      <*> defaulted "delete_link" boolean true

def classKind : Decoder ClassKind :=
  Decode.enumeration ["entity", "complex"] fun
    | "entity" => some .entity
    | "complex" => some .complex
    | _ => none

def methodKind : Decoder MethodKind :=
  Decode.enumeration ["action", "function"] fun
    | "action" => some .action
    | "function" => some .function
    | _ => none

def propertyEntry : Decoder PropertyEntry :=
  Record.decode "PropertyDoc" <|
    PropertyEntry.mk
      <$> required "name" text
      <*> required "type" text
      <*> defaulted "collection" boolean false
      <*> defaulted "computed" boolean false
      <*> defaulted "immutable" boolean false
      <*> defaulted "reference" boolean false
      <*> defaulted "nullable" boolean true
      <*> defaulted "capabilities" capabilities {}
      <*> optionalText "description"

def containerEntry : Decoder ContainerEntry :=
  Record.decode "ContainerDoc" <|
    ContainerEntry.mk
      <$> required "name" text
      <*> defaulted "properties" (Decode.list propertyEntry) []

def parameterEntry : Decoder ParameterEntry :=
  Record.decode "MethodParameterDoc" <|
    ParameterEntry.mk
      <$> required "name" text
      <*> required "type" text
      <*> defaulted "collection" boolean false
      <*> defaulted "nullable" boolean true

def returnEntry : Decoder ReturnEntry :=
  Record.decode "ReturnDoc" <|
    ReturnEntry.mk
      <$> required "type" text
      <*> defaulted "collection" boolean false

def methodEntry : Decoder MethodEntry :=
  Record.decode "MethodDoc" <|
    MethodEntry.mk
      <$> required "name" text
      <*> required "kind" methodKind
      <*> defaulted "bound_to_collection" boolean false
      <*> defaulted "parameters" (Decode.list parameterEntry) []
      <*> defaulted "returns" (Decode.optional returnEntry) none
      <*> optionalText "description"

def classEntry : Decoder ClassEntry :=
  Record.decode "ClassDoc" <|
    ClassEntry.mk
      <$> required "name" text
      <*> defaulted "kind" classKind .entity
      <*> optionalText "base"
      <*> defaulted "abstract" boolean false
      <*> optionalText "key"
      <*> defaulted "properties" (Decode.list propertyEntry) []
      <*> defaulted "methods" (Decode.list methodEntry) []
      <*> optionalText "description"

def enumEntry : Decoder EnumEntry :=
  Record.decode "EnumDoc" <|
    EnumEntry.mk
      <$> required "name" text
      <*> defaulted "members" (Decode.list text) []
      <*> defaulted "flags" boolean false

def decode : Decoder Document :=
  Record.decode "SchemaDocument" <|
    Document.mk
      <$> required "namespace" text
      <*> required "container" containerEntry
      <*> defaulted "classes" (Decode.list classEntry) []
      <*> defaulted "enums" (Decode.list enumEntry) []

end Document
end EdmCommands
