/-
# Blanks

The code points with the Unicode property `White_Space`.  They are what may surround a
number that stands in a text, and what may stand anywhere in a block of base64.
-/
import ImageTrust.Text.Basic

namespace ImageTrust

/-- Whether the code point is white space. -/
def CodePoint.isBlank (c : CodePoint) : Bool :=
  c.within 0x09 0x0D || c.val == 0x20 || c.val == 0x85 || c.val == 0xA0 || c.val == 0x1680 ||
    c.within 0x2000 0x200A || c.val == 0x2028 || c.val == 0x2029 || c.val == 0x202F ||
    c.val == 0x205F || c.val == 0x3000

end ImageTrust
