/-!
# Blank characters and trimming

Blanks are the characters with the Unicode property `White_Space`. Trimming removes blanks from
one end of a text or from both, and never touches a blank inside it.
-/

set_option autoImplicit false

namespace RouteAtlas.Text

def isBlank (c : Char) : Bool :=
  let n := c.toNat
  (0x9 ≤ n && n ≤ 0xD) || n == 0x20 || n == 0x85 || n == 0xA0 || n == 0x1680 ||
    (0x2000 ≤ n && n ≤ 0x200A) || n == 0x2028 || n == 0x2029 || n == 0x202F ||
    n == 0x205F || n == 0x3000

/-- The characters without their leading members that satisfy `p`. -/
def dropLeading (p : Char → Bool) (cs : List Char) : List Char :=
  cs.dropWhile p

/-- The characters without their trailing members that satisfy `p`. -/
def dropTrailing (p : Char → Bool) (cs : List Char) : List Char :=
  (cs.reverse.dropWhile p).reverse

/-- The characters without the blanks at either end. -/
def trimChars (cs : List Char) : List Char :=
  dropTrailing isBlank (dropLeading isBlank cs)

/-- The text without the blanks at either end. -/
def trim (s : String) : String :=
  String.ofList (trimChars s.toList)

/-- The text without the characters at either end that satisfy `p`. -/
def trimMatching (p : Char → Bool) (s : String) : String :=
  String.ofList (dropTrailing p (dropLeading p s.toList))

/-- The text with every blank removed. -/
def squeeze (s : String) : String :=
  String.ofList (s.toList.filter fun c => !isBlank c)

end RouteAtlas.Text
