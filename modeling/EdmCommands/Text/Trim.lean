/-!
# EdmCommands.Text.Trim

White space and the removal of characters from the ends of a text. `isBlank` is the Unicode
property White_Space, which has twenty-five characters.
-/

namespace EdmCommands
namespace Text

/-- Whether the character has the Unicode property White_Space. -/
def isBlank (c : Char) : Bool :=
  let code := c.toNat
  (0x09 ≤ code && code ≤ 0x0D) || code == 0x20 || code == 0x85 || code == 0xA0 ||
    code == 0x1680 || (0x2000 ≤ code && code ≤ 0x200A) || code == 0x2028 || code == 0x2029 ||
    code == 0x202F || code == 0x205F || code == 0x3000

/-- The list without the longest tail of elements that satisfy `p`. -/
def dropEndWhile {α : Type} (p : α → Bool) (cs : List α) : List α :=
  (cs.reverse.dropWhile p).reverse

def dropEnd {α : Type} (n : Nat) (cs : List α) : List α :=
  cs.take (cs.length - n)

/-- The text without the characters at its two ends that satisfy `p`. -/
def trimWhile (p : Char → Bool) (s : String) : String :=
  String.ofList (dropEndWhile p (s.toList.dropWhile p))

def trimBlank (s : String) : String :=
  trimWhile isBlank s

def trimSlash (s : String) : String :=
  trimWhile (· == '/') s

/-- What follows `head` in `s`, when `s` starts with it. -/
def stripStart? (head s : String) : Option String :=
  (head.toList.isPrefixOf? s.toList).map String.ofList

/-- What precedes `tail` in `s`, when `s` ends with it. -/
def stripEnd? (tail s : String) : Option String :=
  (tail.toList.isSuffixOf? s.toList).map String.ofList

end Text
end EdmCommands
