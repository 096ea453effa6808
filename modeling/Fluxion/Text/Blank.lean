/-
Blank characters: the ASCII controls and separators that count as white
space, and the Unicode space, line and paragraph separators.
-/

namespace Fluxion.Text

def isBlank (c : Char) : Bool :=
  let n := c.toNat
  (9 ≤ n && n ≤ 13) || (28 ≤ n && n ≤ 32) || n == 0x85 || n == 0xa0 || n == 0x1680 ||
    (0x2000 ≤ n && n ≤ 0x200a) || n == 0x2028 || n == 0x2029 || n == 0x202f || n == 0x205f ||
    n == 0x3000

/-- The ASCII separators of files, groups, records and units. -/
def isSeparator (c : Char) : Bool := 28 ≤ c.toNat && c.toNat ≤ 31

/-- The text without the characters at either end that are in a class. -/
def trimmedOf (p : Char → Bool) (cs : List Char) : List Char :=
  ((cs.dropWhile p).reverse.dropWhile p).reverse

def trimmed (cs : List Char) : List Char := trimmedOf isBlank cs

end Fluxion.Text
