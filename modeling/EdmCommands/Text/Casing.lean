import EdmCommands.Text.CaseTable

/-!
# EdmCommands.Text.Casing

Unicode case of a character: the two properties and the full mappings, which may send one
character to several (`ß` has the upper case `SS`). The data is in `CaseTable`; a character that
no table names is without case and maps to itself.
-/

namespace EdmCommands
namespace Text

/-- Whether the character has the Unicode property Uppercase. -/
def isUppercase (c : Char) : Bool :=
  CaseTable.uppercase.any (·.covers c.toNat)

/-- Whether the character has the Unicode property Lowercase. -/
def isLowercase (c : Char) : Bool :=
  CaseTable.lowercase.any (·.covers c.toNat)

/-- The image of a code point under a mapping given by its two tables. -/
def caseImage (several : List CaseTable.Several) (single : List CaseTable.Shift) (c : Char) :
    List Char :=
  match several.find? (·.code == c.toNat) with
  | some entry => entry.image.map Char.ofNat
  | none =>
    match single.find? (·.toSpan.covers c.toNat) with
    | some entry => [Char.ofNat (c.toNat + entry.shift).toNat]
    | none => [c]

def lowerChars (c : Char) : List Char :=
  caseImage CaseTable.toLowerSeveral CaseTable.toLower c

def upperChars (c : Char) : List Char :=
  caseImage CaseTable.toUpperSeveral CaseTable.toUpper c

end Text
end EdmCommands
