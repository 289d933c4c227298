import RespLink.Reply

/-!
# Replies and commands as bytes

* `Reply.encode`    a reply as it stands on the wire;
* `encodeCommand`   a command: an array of the bulk strings of its verb and its arguments.

Lengths are announced before the bytes, so the bytes of an argument are never looked at.
-/

namespace RespLink

/-- a header line: the type byte, then text up to the end of the line -/
def headerLine (typeByte : UInt8) (content : Bytes) : Bytes := typeByte :: content ++ Bytes.crlf

def decimal (n : Nat) : Bytes := Utf8.encode (Numeral.ofNat n)

/-- a byte string after its length -/
def encodeBulk (bytes : Bytes) : Bytes :=
  headerLine 0x24 (decimal bytes.length) ++ bytes ++ Bytes.crlf

namespace Reply

mutual

def encode : Reply → Bytes
  | simple text => headerLine 0x2B (Utf8.encode text)
  | error text => headerLine 0x2D (Utf8.encode text)
  | integer n => headerLine 0x3A (Utf8.encode (Numeral.ofInt n.toInt))
  | bulk bytes => encodeBulk bytes
  | null => headerLine 0x24 (Utf8.encode "-1")
  | array items => headerLine 0x2A (decimal items.length) ++ encodeItems items
  | nullArray => headerLine 0x2A (Utf8.encode "-1")

def encodeItems : List Reply → Bytes
  | [] => []
  | item :: rest => encode item ++ encodeItems rest

end

theorem encodeItems_nil : encodeItems [] = [] := by simp [encodeItems]
theorem encodeItems_cons (r : Reply) (rs : List Reply) :
    encodeItems (r :: rs) = r.encode ++ encodeItems rs := by simp [encodeItems]

end Reply

def encodeCommand (verb : String) (args : List Bytes) : Bytes :=
  headerLine 0x2A (decimal (1 + args.length)) ++ encodeBulk (Utf8.encode verb)
    ++ args.flatMap encodeBulk

/-- a command is written as the array of its bulk strings -/
theorem encodeCommand_eq (verb : String) (args : List Bytes) :
    encodeCommand verb args
      = (Reply.array (Reply.bulk (Utf8.encode verb) :: args.map Reply.bulk)).encode := by
  have h : ∀ l : List Bytes, Reply.encodeItems (l.map Reply.bulk) = l.flatMap encodeBulk := by
    intro l
    induction l with
    | nil => simp [Reply.encodeItems]
    | cons b l ih => simp [Reply.encodeItems, Reply.encode, ih]
  simp [encodeCommand, Reply.encode, Reply.encodeItems, h, Nat.add_comm]

end RespLink
