import EdmCommands.Command.Basic
import EdmCommands.Naming

/-!
# EdmCommands.Emission.Page

The documentation of commands in Markdown: a page for each command, with a table of parameters for
each of its sets, and an index of all pages. Free text goes through `cell` before it is put into a
table, so that a separator in it does not end the cell.
-/

namespace EdmCommands
namespace Emission

/-- Lines, each ended by a newline. -/
def lines (ls : List String) : String :=
  String.join (ls.map fun l => l ++ "\n")

/-- A text for a table cell: separators are escaped and line breaks become spaces. -/
def cell (s : String) : String :=
  String.ofList <| s.toList.flatMap fun c =>
    if c == '|' then ['\\', '|'] else if c == '\n' then [' '] else [c]

def row (cells : List String) : String :=
  "| " ++ " | ".intercalate cells ++ " |"

/-- A text between backquotes. -/
def code (s : String) : String :=
  "`" ++ s ++ "`"

def yesNo (b : Bool) : String :=
  if b then "yes" else "no"

/-- A text that is there and not empty. -/
def filled (s : Option String) : Option String :=
  s.filter (!·.isEmpty)

def pageFile (commandName : String) : String :=
  Naming.snakeCase commandName ++ ".md"

def parameterRow (set : String) (p : Parameter) : String :=
  row
    [p.name, cell p.type.display, code (cell p.effectiveWireName), p.location.name,
      yesNo (p.isMandatoryIn set), yesNo (p.fromPipelineValue || p.fromPipelineByName),
      cell (p.description.getD "")]

def parameterTable (set : String) (parameters : List Parameter) : List String :=
  if parameters.isEmpty then ["No parameters."]
  else
    row ["Name", "Type", "Sent as", "Location", "Mandatory", "Pipeline", "Description"] ::
      "|---|---|---|---|---|---|---|" :: parameters.map (parameterRow set)

/-- The section of a set, behind an empty line. -/
def setSection (c : Command) (s : ParameterSet) : List String :=
  ["", "### " ++ s.name ++ (if s.isDefault then " (default)" else "")] ++
  ((filled s.derivedType).map fun t => ["", "Creates or updates a " ++ code t ++ "."]).getD [] ++
  [""] ++ parameterTable s.name (c.parametersIn s.name) ++ [""]

/-- The table of what a command is about. -/
def overview (c : Command) : List String :=
  [row ["Operation", c.operation.name],
    row ["Request", code (c.httpMethod.name ++ " " ++ c.urlTemplate)],
    row ["Route", code c.route]] ++
  ((filled c.resourceType).map fun t => row ["Resource type", code t]).toList ++
  ((filled c.referenceTarget).map fun t =>
    row ["Reference targets", "[" ++ t ++ "](" ++ pageFile t ++ ")"]).toList

def page (c : Command) : String :=
  lines <|
    ["# " ++ c.name.full, "", c.summary] ++
    ((filled c.description).map fun d => ["", d]).getD [] ++
    ["", "| | |", "|---|---|"] ++ overview c ++
    ["", "## Parameter sets"] ++ c.sets.flatMap (setSection c) ++ [""]

def indexRow (c : Command) : String :=
  row
    ["[" ++ c.name.full ++ "](commands/" ++ pageFile c.name.full ++ ")",
      code (c.httpMethod.name ++ " " ++ cell c.urlTemplate), cell c.summary]

def index (commands : List Command) : String :=
  lines <|
    ["# Generated commands", "", toString commands.length ++ " commands.", "",
      row ["Command", "Request", "Summary"], "|---|---|---|"] ++
    commands.map indexRow ++ [""]

end Emission
end EdmCommands
