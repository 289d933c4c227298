import RespLink.Text.CharTable

/-!
# White space

The characters of the Unicode property White_Space, and texts without such characters at their
ends.
-/

namespace RespLink.Text

def blankTable : CharTable :=
  [(0x9, 0xD), (0x20, 0x20), (0x85, 0x85), (0xA0, 0xA0), (0x1680, 0x1680), (0x2000, 0x200A),
   (0x2028, 0x2029), (0x202F, 0x202F), (0x205F, 0x205F), (0x3000, 0x3000)]

def isBlank (c : Char) : Bool := blankTable.has c

/-- a list without the elements at its end for which `p` holds -/
def dropLastWhile {α : Type} (p : α → Bool) (l : List α) : List α :=
  (l.reverse.dropWhile p).reverse

def trim (cs : List Char) : List Char := dropLastWhile isBlank (cs.dropWhile isBlank)

end RespLink.Text
