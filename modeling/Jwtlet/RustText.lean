import Mathlib

/-!
# Text functions of the Rust standard library

`char::is_whitespace` follows the Unicode property `White_Space`, and
`str::trim` and `str::split_whitespace` are defined from it: splitting cuts at
every whitespace character and drops the empty pieces.
-/

namespace Rust

/-- `char::is_whitespace`: the characters with the Unicode property `White_Space`.  The
ranges are the 25 code points that the property has. -/
def isWhitespace (c : Char) : Bool :=
  let n := c.toNat
  (0x9 ≤ n && n ≤ 0xD) || n == 0x20 || n == 0x85 || n == 0xA0 || n == 0x1680 ||
    (0x2000 ≤ n && n ≤ 0x200A) || n == 0x2028 || n == 0x2029 || n == 0x202F ||
    n == 0x205F || n == 0x3000

/-- `str::trim`: the string without the whitespace at its start and at its end.
Whitespace in the middle stays. -/
def trim (s : String) : String :=
  String.ofList ((s.toList.dropWhile isWhitespace).rdropWhile isWhitespace)

/-- `str::split_whitespace`, collected: the pieces between runs of whitespace.  No piece
is empty, so a blank string has none. -/
def splitWhitespace (s : String) : List String :=
  ((s.toList.splitOnP isWhitespace).filter fun w => !w.isEmpty).map String.ofList

/-- `str::to_ascii_lowercase`: the letters `A` to `Z` in lower case.  Every other
character stays as it is. -/
def toAsciiLowercase (s : String) : String :=
  String.ofList (s.toList.map Char.toLower)

/-- A string is blank when trimming leaves nothing, the test that the validation of
identifiers makes. -/
def isBlank (s : String) : Bool := trim s == ""

end Rust
