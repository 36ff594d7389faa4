import EdmCommands.Command.Basic

/-!
# EdmCommands.Synthesis.Options

The query options that commands have beside their own parameters.
-/

namespace EdmCommands
namespace Synthesis

def queryOption (name wire : String) (type : ParameterType) (description : String) : Parameter :=
  { name := name
    wireName := some wire
    type := type
    location := .query
    description := some description }

/-- The options that choose what of a resource is returned. -/
def projectionOptions : List Parameter :=
  [queryOption "Select" "$select" (.collection .text) "Select properties to be returned",
    queryOption "Expand" "$expand" (.collection .text) "Expand related entities"]

/-- The options that choose among the items of a collection. -/
def collectionOptions : List Parameter :=
  [queryOption "Filter" "$filter" .text "Filter items by property values",
    queryOption "Search" "$search" .text "Search items by search phrases",
    queryOption "OrderBy" "$orderby" (.collection .text) "Order items by property values",
    queryOption "Skip" "$skip" (.primitive .int32) "Skip the first n items",
    queryOption "Top" "$top" (.primitive .int32) "Show only the first n items"]

end Synthesis
end EdmCommands
