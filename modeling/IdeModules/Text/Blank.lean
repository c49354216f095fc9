/-!
# Blanks

A blank is a white space character of Unicode: a separator, or one of the
control characters that move the writing position or part records.  Text that
holds nothing else counts as empty wherever it only lays out a document.
-/

namespace IdeModules

/-- The blanks outside ASCII. -/
def wideBlanks : List Nat :=
  [0x85, 0xa0, 0x1680, 0x2000, 0x2001, 0x2002, 0x2003, 0x2004, 0x2005, 0x2006,
    0x2007, 0x2008, 0x2009, 0x200a, 0x2028, 0x2029, 0x202f, 0x205f, 0x3000]

def isBlank (c : Char) : Bool :=
  let code := c.toNat
  code == 0x20 || (0x9 ≤ code && code ≤ 0xd) || (0x1c ≤ code && code ≤ 0x1f) ||
    wideBlanks.contains code

def allBlank (text : String) : Bool :=
  text.toList.all isBlank

end IdeModules
