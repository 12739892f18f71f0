/-!
# White space

* `isBlank`: the characters with the white space property, a line break included.
* `trim`: a text without the white space at its ends.
-/

namespace TwinSudoku.Text

/-- A character with the white space property: the control characters from tab to carriage
return, the ordinary space, next line, the no-break space and the wider and narrower
spaces and separators. -/
def isBlank (c : Char) : Bool :=
  let n := c.toNat
  (9 ≤ n && n ≤ 13) || n == 0x20 || n == 0x85 || n == 0xa0 || n == 0x1680 ||
    (0x2000 ≤ n && n ≤ 0x200a) || n == 0x2028 || n == 0x2029 || n == 0x202f ||
    n == 0x205f || n == 0x3000

def trimEnd (cs : List Char) : List Char := (cs.reverse.dropWhile isBlank).reverse

/-- Drops the white space at both ends. -/
def trim (cs : List Char) : List Char := trimEnd (cs.dropWhile isBlank)

def blank (cs : List Char) : Bool := cs.all isBlank

end TwinSudoku.Text
