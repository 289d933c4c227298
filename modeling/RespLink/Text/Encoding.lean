import RespLink.Error
import RespLink.Text.Utf8

/-!
# Text encodings

How texts become bytes of a command and bytes of a reply become text.

* `utf8`    malformed bytes read as replacement characters;
* `latin1`  one byte per character; a character above U+00FF is written as a question mark.
-/

namespace RespLink

inductive Encoding where
  | utf8
  | latin1
deriving DecidableEq, Repr

namespace Encoding

def latin1Byte (c : Char) : UInt8 := if c.toNat < 256 then UInt8.ofNat c.toNat else 0x3F

def latin1Char (b : UInt8) : Char := Char.ofNat b.toNat

def encode (e : Encoding) (text : String) : Bytes :=
  match e with
  | .utf8 => Utf8.encode text
  | .latin1 => text.toList.map latin1Byte

def decode (e : Encoding) (bs : Bytes) : String :=
  match e with
  | .utf8 => Utf8.lossy bs
  | .latin1 => String.ofList (bs.map latin1Char)

/-! ## names -/

/-- the name is compared without regard to the case of ASCII letters -/
def ofName (name : String) : Except Error Encoding :=
  let lower := String.ofList (name.toList.map Char.toLower)
  if lower = "utf-8" ∨ lower = "utf8" then .ok .utf8
  else if lower = "iso-8859-1" ∨ lower = "latin1" ∨ lower = "latin-1" then .ok .latin1
  else .error (.config ("Unsupported encoding: " ++ name))

end Encoding
end RespLink
