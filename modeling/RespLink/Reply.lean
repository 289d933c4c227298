import RespLink.Text.Quoted
import RespLink.Text.Read

/-!
# Replies

A `Reply` is one value of the wire protocol.

* `typeByte`   the byte its encoding starts with;
* `quoted`     its text inside messages;
* `asText`, `asInt64`  the two readings of a scalar reply.
-/

namespace RespLink

inductive Reply where
  /-- one line of text -/
  | simple (text : String)
  /-- one line of text that reports a failure -/
  | error (text : String)
  | integer (n : Int64)
  /-- a byte string of announced length -/
  | bulk (bytes : Bytes)
  /-- the bulk string that is none -/
  | null
  | array (items : List Reply)
  /-- the array that is none -/
  | nullArray
deriving Repr

namespace Reply

def typeByte : Reply → UInt8
  | simple _ => 0x2B
  | error _ => 0x2D
  | integer _ => 0x3A
  | bulk _ | null => 0x24
  | array _ | nullArray => 0x2A

/-- the bulk string of a text -/
def ofText (text : String) : Reply := bulk (Utf8.encode text)

/-- a bulk string of exactly these bytes -/
def isBulk (literal : String) : Reply → Bool
  | bulk bytes => bytes == Utf8.encode literal
  | _ => false

/-! ## text in messages -/

mutual

def quoted : Reply → String
  | simple text => "SimpleString(" ++ Quoted.text text ++ ")"
  | error text => "Error(" ++ Quoted.text text ++ ")"
  | integer n => "Integer(" ++ Numeral.ofInt n.toInt ++ ")"
  | bulk bytes => "BulkString(" ++ Quoted.bytes bytes ++ ")"
  | null => "Null"
  | array items => "Array(" ++ Quoted.list (quotedItems items) ++ ")"
  | nullArray => "NullArray"

def quotedItems : List Reply → List String
  | [] => []
  | item :: rest => quoted item :: quotedItems rest

end

/-! ## equality -/

mutual

def same : Reply → Reply → Bool
  | simple s, simple t => s == t
  | error s, error t => s == t
  | integer m, integer n => m == n
  | bulk b, bulk c => b == c
  | null, null => true
  | array l, array m => sameItems l m
  | nullArray, nullArray => true
  | _, _ => false

def sameItems : List Reply → List Reply → Bool
  | [], [] => true
  | a :: l, b :: m => same a b && sameItems l m
  | _, _ => false

end

mutual

theorem same_iff : ∀ a b : Reply, same a b = true ↔ a = b
  | simple _, b => by cases b <;> simp [same]
  | error _, b => by cases b <;> simp [same]
  | integer _, b => by cases b <;> simp [same]
  | bulk _, b => by cases b <;> simp [same]
  | null, b => by cases b <;> simp [same]
  | array l, b => by cases b <;> simp [same, sameItems_iff l]
  | nullArray, b => by cases b <;> simp [same]

theorem sameItems_iff : ∀ l m : List Reply, sameItems l m = true ↔ l = m
  | [], m => by cases m <;> simp [sameItems]
  | a :: l, m => by cases m <;> simp [sameItems, same_iff a, sameItems_iff l]

end

instance : DecidableEq Reply := fun a b => decidable_of_iff _ (same_iff a b)

/-! ## readings -/

def asText : Reply → Except Error String
  | simple text => .ok text
  | bulk bytes => Text.readUtf8 bytes
  | integer n => .ok (Numeral.ofInt n.toInt)
  | null | nullArray => .error (.conversion "Value is null")
  | reply => .error (.conversion ("Cannot convert " ++ reply.quoted ++ " to string"))

def asInt64 (reply : Reply) : Except Error Int64 :=
  match reply with
  | integer n => .ok n
  | simple _ | bulk _ => reply.asText.bind Text.readInt64
  | _ => .error (.conversion ("Cannot convert " ++ reply.quoted ++ " to integer"))

end Reply
end RespLink
