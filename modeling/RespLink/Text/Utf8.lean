import RespLink.Bytes

/-!
# UTF-8

* `encode`   the bytes of a text;
* `head`     what stands at the front of a non-empty byte string: a character, an invalid
             sequence (as long as a valid one could still have followed it), or a sequence that
             the data cuts off;
* `decode?`  the text of a well-formed byte string, or the first `Fault`;
* `lossy`    the text of any byte string: each invalid sequence, and a cut one at the end, reads
             as the replacement character.
-/

namespace RespLink.Utf8

/-- the character that stands for bytes which are no text -/
def replacement : Char := Char.ofNat 0xFFFD

def encodeChars (cs : List Char) : Bytes := cs.flatMap String.utf8EncodeChar

def encode (text : String) : Bytes := encodeChars text.toList

/-! ## one sequence -/

/-- what the first byte of a longer sequence promises: how many bytes follow it, the bits it
holds, and the range of the second byte -/
structure Lead where
  follow : Nat
  bits : Nat
  low : UInt8
  high : UInt8
deriving DecidableEq

/-- `none` for a byte that starts no longer sequence -/
def lead (b : UInt8) : Option Lead :=
  if b < 0xC2 then none
  else if b ≤ 0xDF then some ⟨1, b.toNat - 0xC0, 0x80, 0xBF⟩
  else if b = 0xE0 then some ⟨2, 0, 0xA0, 0xBF⟩
  else if b = 0xED then some ⟨2, 0xD, 0x80, 0x9F⟩
  else if b ≤ 0xEF then some ⟨2, b.toNat - 0xE0, 0x80, 0xBF⟩
  else if b = 0xF0 then some ⟨3, 0, 0x90, 0xBF⟩
  else if b ≤ 0xF3 then some ⟨3, b.toNat - 0xF0, 0x80, 0xBF⟩
  else if b = 0xF4 then some ⟨3, 4, 0x80, 0x8F⟩
  else none

/-- what stands at the front; `more` counts the bytes after the first one -/
inductive Head where
  | char (c : Char) (more : Nat)
  | invalid (more : Nat)
  | cut
deriving DecidableEq, Repr

/-- `n` further bytes of a sequence whose first bytes hold `bits`; `more` of them are read -/
def followed : Nat → Nat → Nat → Bytes → Head
  | 0, bits, more, _ => .char (Char.ofNat bits) more
  | _ + 1, _, _, [] => .cut
  | n + 1, bits, more, b :: rest =>
    if 0x80 ≤ b ∧ b ≤ 0xBF then followed n (bits * 64 + (b.toNat - 0x80)) (more + 1) rest
    else .invalid more

def head (b : UInt8) (rest : Bytes) : Head :=
  if b < 0x80 then .char (Char.ofNat b.toNat) 0
  else match lead b with
    | none => .invalid 0
    | some l =>
      match rest with
      | [] => .cut
      | c :: rest =>
        if l.low ≤ c ∧ c ≤ l.high then
          followed (l.follow - 1) (l.bits * 64 + (c.toNat - 0x80)) 1 rest
        else .invalid 0

/-! ## strict reading -/

/-- where the text stops being UTF-8, and the length of the invalid sequence unless the data ends
inside it -/
structure Fault where
  start : Nat
  length : Option Nat
deriving DecidableEq, Repr

def Fault.message (f : Fault) : String :=
  match f.length with
  | some n => "invalid utf-8 sequence of " ++ toString n ++ " bytes from index " ++ toString f.start
  | none => "incomplete utf-8 byte sequence from index " ++ toString f.start

/-- reads on at index `pos`, after passing over `skip` bytes that are read already -/
def decodeFrom : Nat → Nat → Bytes → Except Fault (List Char)
  | _, _, [] => .ok []
  | pos, skip + 1, _ :: rest => decodeFrom (pos + 1) skip rest
  | pos, 0, b :: rest =>
    match head b rest with
    | .char c more => (decodeFrom (pos + 1) more rest).map (c :: ·)
    | .invalid more => .error ⟨pos, some (more + 1)⟩
    | .cut => .error ⟨pos, none⟩

def decode? (bs : Bytes) : Except Fault String := (decodeFrom 0 0 bs).map String.ofList

/-! ## lossy reading -/

/-- reads on after passing over `skip` bytes that are read already -/
def lossyFrom : Nat → Bytes → List Char
  | _, [] => []
  | skip + 1, _ :: rest => lossyFrom skip rest
  | 0, b :: rest =>
    match head b rest with
    | .char c more => c :: lossyFrom more rest
    | .invalid more => replacement :: lossyFrom more rest
    | .cut => [replacement]

def lossy (bs : Bytes) : String := String.ofList (lossyFrom 0 bs)

end RespLink.Utf8
