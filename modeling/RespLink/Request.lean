import RespLink.Number.Binary64
import RespLink.Transform

/-!
# Requests

A `Request` is a command before it is bound to a connection: a verb, arguments, and what the
caller wants to get.

* `Arg`            one argument; `toBytes` is what is sent of it, `toText` the name it gives to a
                   channel or pattern;
* `Request.verb`   the verb in upper case.
-/

namespace RespLink

inductive Arg where
  | text (s : String)
  /-- sent as they are -/
  | binary (bs : Bytes)
  | int (n : Int64)
  | float (x : Binary64)
deriving DecidableEq, Repr

namespace Arg

/-- a count as an argument; above the range of integers its digits are a text -/
def ofNat (n : Nat) : Arg :=
  if n < 0x8000000000000000 then int (Int64.ofNat n) else text (Numeral.ofNat n)

def toBytes (e : Encoding) : Arg → Bytes
  | text s => e.encode s
  | binary bs => bs
  | int n => Utf8.encode (Numeral.ofInt n.toInt)
  | float x => Utf8.encode x.text

def toText (e : Encoding) : Arg → String
  | text s => s
  | binary bs => e.decode bs
  | int n => Numeral.ofInt n.toInt
  | float x => x.text

end Arg

structure Request where
  verb : String
  args : List Arg
  shape : Shape
  /-- texts and replies are 8-bit clean: one byte per character -/
  binary : Bool
deriving DecidableEq, Repr

namespace Request

def ofVerb (verb : String) : Request := ⟨Transform.upperAscii verb, [], .text, false⟩

def withArgs (r : Request) (args : List Arg) : Request := { r with args := r.args ++ args }

def withTexts (r : Request) (texts : List String) : Request := r.withArgs (texts.map Arg.text)

def returning (r : Request) (shape : Shape) : Request := { r with shape := shape }

/-- the encoding in use for a request on a connection of encoding `e` -/
def encoding (r : Request) (e : Encoding) : Encoding := if r.binary then .latin1 else e

end Request
end RespLink
