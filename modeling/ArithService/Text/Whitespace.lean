/-!
# White space

The characters with the Unicode property `White_Space`, and trimming and removing them.

## Main Definitions

* `isWhiteSpace` — membership in the property
* `trim` — a text without white space at its two ends
* `removeWhiteSpace` — a text without any white space
-/

namespace ArithService

/-- Whether a character has the Unicode property `White_Space`. -/
def isWhiteSpace (c : Char) : Bool :=
  let n := c.toNat
  (9 ≤ n && n ≤ 13) || n = 0x20 || n = 0x85 || n = 0xa0 || n = 0x1680 ||
    (0x2000 ≤ n && n ≤ 0x200a) || n = 0x2028 || n = 0x2029 || n = 0x202f ||
    n = 0x205f || n = 0x3000

/-- A list of characters without leading white space. -/
def trimLeft (cs : List Char) : List Char := cs.dropWhile isWhiteSpace

/-- A list of characters without white space at either end. -/
def trimChars (cs : List Char) : List Char := (trimLeft (trimLeft cs).reverse).reverse

/-- A text without white space at either end. -/
def trim (text : String) : String := String.ofList (trimChars text.toList)

/-- A text without any white space. -/
def removeWhiteSpace (text : String) : String :=
  String.ofList (text.toList.filter fun c => !isWhiteSpace c)

/-- Whether a text consists of white space only. -/
def isBlank (text : String) : Bool := text.toList.all isWhiteSpace

end ArithService
