import Fproxy.Library.Scan

/-!
# Text operations of a standard library

Splitting, trimming and lower-casing of strings, as lists of characters underneath.  The lower case
of characters beyond ASCII is a parameter, `ToLower`, for texts that are shown; no comparison needs
it.
-/

namespace Fproxy.Text

/-- The Unicode property `White_Space`. -/
def isWhiteSpace (c : Char) : Bool :=
  (9 ≤ c.toNat && c.toNat ≤ 13) || (0x2000 ≤ c.toNat && c.toNat ≤ 0x200a) ||
    c.toNat ∈ [0x20, 0x85, 0xa0, 0x1680, 0x2028, 0x2029, 0x202f, 0x205f, 0x3000]

/-- The pieces between the delimiters. -/
def split (sep : Char) (s : String) : List String := (s.toList.splitOn sep).map String.ofList

/-- White space removed from both ends. -/
def trim (s : String) : String := String.ofList (Scan.trim isWhiteSpace s.toList)

/-- Lower case of the ASCII letters.  It stands for the Unicode operation in a comparison with an
ASCII word without `i` and `k`, to whose letters no other character lower-cases (nor with an `i`,
where `İ` becomes two characters). -/
def toLowercase (s : String) : String := String.ofList (s.toList.map Char.toLower)

/-- The Unicode lower case of a text. -/
class ToLower where
  toLower : String → String

/-- The lower case of texts without letters beyond ASCII. -/
instance (priority := low) ToLower.ascii : ToLower := ⟨toLowercase⟩

end Fproxy.Text
