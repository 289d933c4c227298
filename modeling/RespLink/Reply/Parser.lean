import RespLink.Reply.Decoder

/-!
# Replies out of a stream

Bytes arrive in pieces of any size.  A `Parser` keeps what has arrived and hands over each reply
once, in order, as soon as its last byte is there.

The frame at the front of the buffer is scanned element by element, without decoding it, and every
feed goes on where the last one stopped:

* `offset`   the bytes of the frame that belong to finished elements and to headers of open arrays;
* `owed`     for each open array the number of elements still missing, innermost first.

When the last element of the outermost array is there, the frame is decoded and dropped.  A fault
leaves the parser where it stands, so that feeding it more bytes meets the same fault again.
-/

namespace RespLink

structure Parser where
  buffer : Bytes
  offset : Nat
  owed : List Nat
deriving DecidableEq, Repr

/-! ## scanning -/

/-- what starts with a type byte; `more` counts the bytes after that one -/
inductive Element where
  /-- the header of an array of `count` elements, at least one -/
  | opens (count : Nat) (more : Nat)
  | whole (more : Nat)
deriving DecidableEq, Repr

namespace Element

def ofBulk (n : Int64) (header : Nat) (after : Bytes) : Verdict Element :=
  if n = -1 then .complete (whole header)
  else if n < 0 then .malformed (.bulkLength n)
  else
    let len := n.toInt.toNat
    if after.length < len + 2 then .incomplete else .complete (whole (header + len + 2))

def ofArray (n : Int64) (header : Nat) : Verdict Element :=
  if 0 < n then .complete (opens n.toInt.toNat header)
  else if n < -1 then .malformed (.arrayLength n)
  else .complete (whole header)

/-- the element at the front of `t :: body`, inside `depth` open arrays -/
def scan (depth : Nat) (t : UInt8) (body : Bytes) : Verdict Element :=
  if t ≠ 0x2B ∧ t ≠ 0x2D ∧ t ≠ 0x3A ∧ t ≠ 0x24 ∧ t ≠ 0x2A then .malformed (.typeByte t)
  else if t = 0x2A ∧ maxDepth ≤ depth then .malformed .tooDeep
  else
    (frontLine body).bind fun (line, after) =>
      if t = 0x3A then (lineNumber line).bind fun _ => .complete (whole (line.length + 2))
      else if t = 0x24 then (lineNumber line).bind fun n => ofBulk n (line.length + 2) after
      else if t = 0x2A then (lineNumber line).bind fun n => ofArray n (line.length + 2)
      else .complete (whole (line.length + 2))

end Element

/-- counts one finished element; nothing is owed any more when the frame is complete -/
def settle : List Nat → List Nat
  | [] => []
  | n :: rest => if 1 < n then (n - 1) :: rest else settle rest

inductive Scan where
  /-- the frame is complete and this long -/
  | frame (length : Nat)
  | pending (offset : Nat) (owed : List Nat)
  | fault (why : Malformed) (offset : Nat) (owed : List Nat)
deriving DecidableEq, Repr

/-- scans the bytes from `offset` on, after passing over `skip` of them that are scanned already -/
def Scan.run : Bytes → Nat → Nat → List Nat → Scan
  | [], _, offset, owed => .pending offset owed
  | _ :: rest, skip + 1, offset, owed => run rest skip offset owed
  | t :: body, 0, offset, owed =>
    match Element.scan owed.length t body with
    | .incomplete => .pending offset owed
    | .malformed why => .fault why offset owed
    | .complete (.opens count more) => run body more (offset + 1 + more) (count :: owed)
    | .complete (.whole more) =>
      match settle owed with
      | [] => .frame (offset + 1 + more)
      | n :: rest => run body more (offset + 1 + more) (n :: rest)

/-! ## feeding -/

/-- what a feed leaves and delivers -/
structure Fed where
  parser : Parser
  replies : List Reply
  fault : Option Malformed
deriving DecidableEq, Repr

namespace Parser

def empty : Parser := ⟨[], 0, []⟩

def scan (p : Parser) : Scan := Scan.run (p.buffer.drop p.offset) 0 p.offset p.owed

/-- takes replies off the buffer, at most `rounds` times -/
def drain : Nat → Parser → Fed
  | 0, p => ⟨p, [], none⟩
  | rounds + 1, p =>
    match p.scan with
    | .pending offset owed => ⟨⟨p.buffer, offset, owed⟩, [], none⟩
    | .fault why offset owed => ⟨⟨p.buffer, offset, owed⟩, [], some why⟩
    | .frame length =>
      match Reply.decode (p.buffer.take length) with
      | .complete (reply, []) =>
        let fed := drain rounds ⟨p.buffer.drop length, 0, []⟩
        ⟨fed.parser, reply :: fed.replies, fed.fault⟩
      | .malformed why => ⟨⟨p.buffer, 0, []⟩, [], some why⟩
      | _ => ⟨⟨p.buffer, 0, []⟩, [], some .framing⟩

/-- every round but the last takes a byte at least, so there are rounds enough -/
def feed (p : Parser) (chunk : Bytes) : Fed :=
  drain (p.buffer.length + chunk.length + 1) ⟨p.buffer ++ chunk, p.offset, p.owed⟩

/-- all replies of a feed, or its fault alone -/
def feedAll (p : Parser) (chunk : Bytes) : Parser × Except Malformed (List Reply) :=
  let fed := p.feed chunk
  (fed.parser, match fed.fault with
    | some why => .error why
    | none => .ok fed.replies)

/-- feeds the chunks in order, up to the first fault -/
def feedChunks (p : Parser) : List Bytes → Fed
  | [] => ⟨p, [], none⟩
  | chunk :: rest =>
    let fed := p.feed chunk
    match fed.fault with
    | some why => ⟨fed.parser, fed.replies, some why⟩
    | none =>
      let later := feedChunks fed.parser rest
      ⟨later.parser, fed.replies ++ later.replies, later.fault⟩

/-- forgets what has arrived -/
def reset (_ : Parser) : Parser := empty

/-- the bytes that form no complete reply yet -/
def buffered (p : Parser) : Nat := p.buffer.length

end Parser
end RespLink
