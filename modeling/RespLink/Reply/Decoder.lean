import RespLink.Reply.Malformed

/-!
# Bytes as replies

`Reply.decode` reads one reply from the front of a byte string and returns the bytes after it.

The reader of arrays is a parameter of the reader of one reply (`decodeWith`): with `n` levels of
nesting left, `decodeWithin n` reads the elements of an array by `decodeWithin (n - 1)`, and with
none left every array is too deep.
-/

namespace RespLink.Reply

/-- a bulk string of `n` bytes -/
def decodeBulk (n : Int64) (bs : Bytes) : Verdict (Reply × Bytes) :=
  if n = -1 then .complete (null, bs)
  else if n < 0 then .malformed (.bulkLength n)
  else
    let len := n.toInt.toNat
    if bs.length < len + 2 then .incomplete
    else if (bs.drop len).take 2 = Bytes.crlf then
      .complete (bulk (bs.take len), bs.drop (len + 2))
    else .malformed .unterminated

def decodeWith (readArray : Bytes → Verdict (Reply × Bytes)) : Bytes → Verdict (Reply × Bytes)
  | [] => .incomplete
  | t :: rest =>
    if t = 0x2B then
      (frontLine rest).bind fun (line, after) => .complete (simple (Utf8.lossy line), after)
    else if t = 0x2D then
      (frontLine rest).bind fun (line, after) => .complete (error (Utf8.lossy line), after)
    else if t = 0x3A then
      (frontNumber rest).bind fun (n, after) => .complete (integer n, after)
    else if t = 0x24 then
      (frontNumber rest).bind fun (n, after) => decodeBulk n after
    else if t = 0x2A then readArray rest
    else .malformed (.typeByte t)

/-- `n` replies one after another -/
def decodeItems (read : Bytes → Verdict (Reply × Bytes)) :
    Nat → Bytes → Verdict (List Reply × Bytes)
  | 0, bs => .complete ([], bs)
  | n + 1, bs =>
    (read bs).bind fun (item, rest) =>
      (decodeItems read n rest).bind fun (items, rest) => .complete (item :: items, rest)

/-- an array after its type byte -/
def decodeArray (read : Bytes → Verdict (Reply × Bytes)) (bs : Bytes) : Verdict (Reply × Bytes) :=
  (frontNumber bs).bind fun (n, after) =>
    if n = -1 then .complete (nullArray, after)
    else if n < 0 then .malformed (.arrayLength n)
    else (decodeItems read n.toInt.toNat after).bind fun (items, rest) =>
      .complete (array items, rest)

/-- one reply with at most `n` arrays nested in each other -/
def decodeWithin : Nat → Bytes → Verdict (Reply × Bytes)
  | 0 => decodeWith fun _ => .malformed .tooDeep
  | n + 1 => decodeWith (decodeArray (decodeWithin n))

def decode (bs : Bytes) : Verdict (Reply × Bytes) := decodeWithin maxDepth bs

end RespLink.Reply
