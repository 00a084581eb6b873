import ComponentSpec.Text.Ranges

/-!
# Blanks

The characters that only separate others: blanks of all widths, tabs, and whatever ends a line.
-/

namespace ComponentSpec.Text

def blanks : CharRanges :=
  [(0x09, 0x0D), (0x20, 0x20), (0x85, 0x85), (0xA0, 0xA0), (0x1680, 0x1680), (0x2000, 0x200A),
   (0x2028, 0x2029), (0x202F, 0x202F), (0x205F, 0x205F), (0x3000, 0x3000)]

def isBlank (c : Char) : Bool := blanks.has c

end ComponentSpec.Text
