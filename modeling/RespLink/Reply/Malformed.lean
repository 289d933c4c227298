import RespLink.Reply

/-!
# Malformed bytes

* `Malformed`   why bytes are no reply and cannot become one;
* `Verdict`     what the front of a byte string is: complete, still incomplete, or malformed.
-/

namespace RespLink

inductive Malformed where
  /-- no reply starts with this byte -/
  | typeByte (b : UInt8)
  /-- a line that should hold an integer -/
  | number (line : Bytes)
  | bulkLength (n : Int64)
  | arrayLength (n : Int64)
  /-- the bytes of a bulk string are not followed by the end of a line -/
  | unterminated
  | tooDeep
  /-- a complete frame that is not exactly one reply -/
  | framing
deriving DecidableEq, Repr

/-- the deepest nesting of arrays in one reply -/
def maxDepth : Nat := 512

namespace Malformed

def message : Malformed → String
  | .typeByte b => "Invalid RESP type byte: " ++ Quoted.char (Char.ofNat b.toNat)
  | .number line => "Invalid integer: " ++ Quoted.text (Utf8.lossy line)
  | .bulkLength n => "Invalid bulk string length: " ++ Numeral.ofInt n.toInt
  | .arrayLength n => "Invalid array length: " ++ Numeral.ofInt n.toInt
  | .unterminated => "Bulk string not terminated by CRLF"
  | .tooDeep => "Reply nested deeper than " ++ Numeral.ofNat maxDepth ++ " arrays"
  | .framing => "Reply does not match its framing"

def toError (why : Malformed) : Error := .protocol why.message

end Malformed

inductive Verdict (α : Type) where
  | complete (a : α)
  /-- more bytes are needed -/
  | incomplete
  | malformed (why : Malformed)
deriving DecidableEq, Repr

namespace Verdict
variable {α β : Type}

def bind : Verdict α → (α → Verdict β) → Verdict β
  | complete a, f => f a
  | incomplete, _ => incomplete
  | malformed why, _ => malformed why

theorem bind_complete (a : α) (f : α → Verdict β) : (complete a).bind f = f a := rfl

theorem bind_eq_complete {v : Verdict α} {next : α → Verdict β} {b : β}
    (h : v.bind next = .complete b) : ∃ a, v = .complete a ∧ next a = .complete b := by
  cases v with
  | complete a => exact ⟨a, rfl, h⟩
  | incomplete => cases h
  | malformed why => cases h

end Verdict

/-! ## lines and numbers -/

/-- the integer on a line, in well-formed text -/
def lineNumber (line : Bytes) : Verdict Int64 :=
  match Utf8.decode? line with
  | .error _ => .malformed (.number line)
  | .ok text =>
    match Numeral.int64 text with
    | .ok n => .complete n
    | .error _ => .malformed (.number line)

/-- the line at the front and the bytes after it -/
def frontLine (bs : Bytes) : Verdict (Bytes × Bytes) :=
  match Bytes.splitLine bs with
  | some found => .complete found
  | none => .incomplete

/-- the integer on the line at the front and the bytes after the line -/
def frontNumber (bs : Bytes) : Verdict (Int64 × Bytes) :=
  (frontLine bs).bind fun (line, after) => (lineNumber line).bind fun n => .complete (n, after)

end RespLink
