import RespLink.Bytes
import RespLink.Text.Unprinted

/-!
# Quoted text

How texts, characters and byte strings stand inside messages: between quotes, with a few named
escapes and everything that is not shown written by its number.

* `text`   double quotes; `'` stands as itself;
* `char`   single quotes; `"` stands as itself;
* `bytes`  double quotes after a `b`; printed ASCII as itself, other bytes by two hexadecimal digits.
-/

namespace RespLink.Quoted

def hexDigit (n : Nat) : Char := Nat.digitChar (n % 16)

/-- two hexadecimal digits -/
def hexByte (b : UInt8) : List Char := [hexDigit (b.toNat / 16), hexDigit b.toNat]

/-- the escape of a character by its number in lower-case hexadecimal digits -/
def byNumber (c : Char) : List Char :=
  ['\\', 'u', '\x7b'] ++ Nat.toDigits 16 c.toNat ++ ['\x7d']

/-- a character between quotes `q` -/
def escapeChar (q c : Char) : List Char :=
  if c = '\x00' then ['\\', '0']
  else if c = '\t' then ['\\', 't']
  else if c = '\r' then ['\\', 'r']
  else if c = '\n' then ['\\', 'n']
  else if c = '\\' ∨ c = q then ['\\', c]
  else if Text.isUnprinted c then byNumber c
  else [c]

def text (s : String) : String :=
  String.ofList (['"'] ++ s.toList.flatMap (escapeChar '"') ++ ['"'])

def char (c : Char) : String :=
  String.ofList (['\''] ++ escapeChar '\'' c ++ ['\''])

def escapeByte (b : UInt8) : List Char :=
  if b = 0x0A then ['\\', 'n']
  else if b = 0x0D then ['\\', 'r']
  else if b = 0x09 then ['\\', 't']
  else if b = 0x5C then ['\\', '\\']
  else if b = 0x22 then ['\\', '"']
  else if b = 0x00 then ['\\', '0']
  else if 0x20 ≤ b ∧ b < 0x7F then [Char.ofNat b.toNat]
  else ['\\', 'x'] ++ hexByte b

def bytes (bs : Bytes) : String :=
  String.ofList (['b', '"'] ++ bs.flatMap escapeByte ++ ['"'])

/-- items between brackets -/
def list (items : List String) : String := "[" ++ ", ".intercalate items ++ "]"

end RespLink.Quoted
