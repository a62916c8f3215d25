/-!
The characters that count as white space: those with the White_Space property. Control characters
outside the tab-to-return block, zero-width characters and the byte order mark are not among them.
-/
namespace ClaimPolicy.Text

/-- First and last code point of every run of white space. -/
def blankRanges : List (Nat × Nat) :=
  [(0x0009, 0x000D), (0x0020, 0x0020), (0x0085, 0x0085), (0x00A0, 0x00A0), (0x1680, 0x1680),
    (0x2000, 0x200A), (0x2028, 0x2029), (0x202F, 0x202F), (0x205F, 0x205F), (0x3000, 0x3000)]

def isBlank (c : Char) : Bool :=
  blankRanges.any fun range => range.1 ≤ c.toNat && c.toNat ≤ range.2

end ClaimPolicy.Text
