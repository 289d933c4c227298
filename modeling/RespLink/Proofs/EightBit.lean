import RespLink.Proofs.Decodings
import RespLink.Proofs.Ledger

/-!
# Binary requests

A binary request reads its reply with one byte per character, whatever the encoding of the
connection, and so does every array inside an array.  What it hands out can be sent again, and goes
out as the bytes that came in.

* `Mirrors`           a value has the shape of a reply, and its byte strings are told by a relation;
* `Arg.SentAs`        the bytes of an argument in the frame of any binary request;
* `Restores`          what stands for a byte string gives its bytes back;
* `mirrors_element`   an element of an array, by recursion on the reply;
* `Request.eight_bit_clean`   the whole reply of a binary request.
-/

namespace RespLink

/-- the shape of a reply: arrays of the same length, numbers and missing values where they were, and
at each byte string a value that `leaf` relates to it -/
inductive Mirrors (leaf : Bytes → Value → Prop) : Reply → Value → Prop
  | simple (s : String) : Mirrors leaf (.simple s) (.text s)
  | error (s : String) : Mirrors leaf (.error s) (.text s)
  | integer (n : Int64) : Mirrors leaf (.integer n) (.int n)
  | bulk {bytes : Bytes} {value : Value} (told : leaf bytes value) : Mirrors leaf (.bulk bytes) value
  | null : Mirrors leaf .null .nil
  | nullArray : Mirrors leaf .nullArray .nil
  | array {items : List Reply} {values : List Value} (each : List.Forall₂ (Mirrors leaf) items values) :
    Mirrors leaf (.array items) (.array values)

/-! ## sending again -/

/-- in the frame of any binary request, whatever the connection and the other arguments, these bytes
stand in the place of the argument, after their number and before the end of a line -/
def Arg.SentAs (arg : Arg) (bytes : Bytes) : Prop :=
  ∀ (ticket : Ticket) (r : Request) (e : Encoding) (before after : List Arg),
    r.binary = true → r.args = before ++ arg :: after →
      (Command.ofRequest ticket r e).frame =
        headerLine 0x2A (decimal (1 + r.args.length)) ++ encodeBulk (Utf8.encode r.verb)
          ++ (before.map (Arg.toBytes .latin1)).flatMap encodeBulk
          ++ (headerLine 0x24 (decimal bytes.length) ++ bytes ++ Bytes.crlf)
          ++ (after.map (Arg.toBytes .latin1)).flatMap encodeBulk

theorem Request.encoding_of_binary {r : Request} (binary : r.binary = true) (e : Encoding) :
    r.encoding e = .latin1 := if_pos binary

theorem Arg.sentAs {arg : Arg} {bytes : Bytes} (same : arg.toBytes .latin1 = bytes) :
    arg.SentAs bytes := by
  intro ticket r e before after binary args
  have frame : (Command.ofRequest ticket r e).frame =
      encodeCommand r.verb (r.args.map (Arg.toBytes .latin1)) := by
    rw [← r.encoding_of_binary binary e]
    rfl
  rw [frame, encodeCommand, List.length_map, args, List.map_append, List.map_cons, same,
    List.flatMap_append, List.flatMap_cons, ← encodeBulk]
  simp only [List.append_assoc]

/-- what a value for a byte string is worth: the bytes themselves if they are asked for, else the
text with a character for each byte; the one is sent as a binary argument, the other as a text -/
inductive Restores (shape : Shape) (bytes : Bytes) : Value → Prop
  | bytes (asked : shape = .bytes) (sent : (Arg.binary bytes).SentAs bytes) :
    Restores shape bytes (.bytes bytes)
  | text {s : String} (asked : shape ≠ .bytes) (clean : Encoding.latin1.encode s = bytes)
      (sent : (Arg.text s).SentAs bytes) : Restores shape bytes (.text s)

theorem restores_bulkElement (shape : Shape) (bytes : Bytes) :
    Restores shape bytes (bulkElement shape .latin1 bytes) := by
  rw [bulkElement]
  split
  · next asked => exact .bytes asked (Arg.sentAs rfl)
  · next asked =>
    have clean := Encoding.encode_decode_latin1 bytes
    exact .text asked clean (Arg.sentAs clean)

/-! ## the reply -/

mutual

theorem mirrors_element (shape : Shape) : ∀ reply : Reply,
    Mirrors (Restores shape) reply (element shape .latin1 reply)
  | .simple s => by rw [element]; exact .simple s
  | .error s => by rw [element]; exact .error s
  | .integer n => by rw [element]; exact .integer n
  | .bulk bytes => by rw [element]; exact .bulk (restores_bulkElement shape bytes)
  | .null => by rw [element]; exact .null
  | .nullArray => by rw [element]; exact .nullArray
  | .array items => by rw [element]; exact .array (mirrors_elements shape items)

theorem mirrors_elements (shape : Shape) : ∀ items : List Reply,
    List.Forall₂ (Mirrors (Restores shape)) items (elements shape .latin1 items)
  | [] => by rw [elements]; exact .nil
  | item :: rest => by
    rw [elements]
    exact .cons (mirrors_element shape item) (mirrors_elements shape rest)

end

/-- a whole byte string reads as an element does if a text, a list or bytes are asked for -/
theorem castBulk_eq {shape : Shape} (asked : shape ∈ [.text, .list, .bytes]) (e : Encoding)
    (bytes : Bytes) : castBulk e bytes shape = .ok (bulkElement shape e bytes) := by
  simp only [List.mem_cons, List.not_mem_nil, or_false] at asked
  obtain rfl | rfl | rfl := asked <;> rfl

/-- the one reply that a command of a request expects is all of its answer -/
theorem Command.answer_ofRequest {ticket : Ticket} {r : Request} {e : Encoding} {reply : Reply}
    {value : Value}
    (h : RespLink.transform reply (Transform.ofVerb r.verb) r.shape (r.encoding e) = .ok value) :
    (Command.ofRequest ticket r e).answer [reply] = .ok value := by
  rw [answer, List.foldl_cons, accept_of_ok (c := Command.ofRequest ticket r e) h]
  rfl

/-- **Binary requests are 8-bit clean.**  If the verb has no say and a text, a list or bytes are
asked for, a byte string or an array comes out in its own shape, with every byte string as its bytes
or as the text of one character a byte, and another binary request sends it as the same bytes. -/
theorem Request.eight_bit_clean {r : Request} (binary : r.binary = true)
    (plain : Transform.ofVerb r.verb = .none) (asked : r.shape ∈ [.text, .list, .bytes])
    (ticket : Ticket) (e : Encoding) {reply : Reply}
    (data : (∃ bytes, reply = .bulk bytes) ∨ ∃ items, reply = .array items) :
    ∃ value, (Command.ofRequest ticket r e).answer [reply] = .ok value ∧
      Mirrors (Restores r.shape) reply value := by
  refine ⟨element r.shape .latin1 reply, Command.answer_ofRequest ?_, mirrors_element r.shape reply⟩
  rw [plain, r.encoding_of_binary binary]
  obtain ⟨bytes, rfl⟩ | ⟨items, rfl⟩ := data
  · rw [element]
    exact castBulk_eq asked .latin1 bytes
  · have wanted : r.shape ≠ .unit := by
      intro unit
      rw [unit] at asked
      exact absurd asked (by decide)
    rw [element, transform, if_neg (by decide), if_neg wanted]

/-- bytes that are no text in the encoding of the connection, and the same bytes one level down -/
theorem Request.eight_bit_clean_of_nested :
    let r : Request := ⟨"LRANGE", [], .list, true⟩
    let reply : Reply := .array [.bulk [0xFF, 0x00], .integer 7, .null, .array [.bulk [0x80]]]
    let value : Value := .array [.text "ÿ\x00", .int 7, .nil, .array [.text "\x80"]]
    (r.binary = true ∧ Transform.ofVerb r.verb = .none ∧ r.shape ∈ [.text, .list, .bytes] ∧
      ∃ items, reply = .array items) ∧
    (Command.ofRequest 1 r .utf8).answer [reply] = .ok value ∧
    Mirrors (Restores .list) reply value := by
  intro r reply value
  have plain : Transform.ofVerb r.verb = .none := by decide +kernel
  have same : (Command.ofRequest 1 r .utf8).answer [reply] = .ok value := by decide +kernel
  obtain ⟨read, told, mirrors⟩ :=
    eight_bit_clean (r := r) rfl plain (by decide) 1 .utf8 (.inr ⟨_, rfl⟩)
  obtain rfl : read = value := Except.ok.inj (told.symm.trans same)
  exact ⟨⟨rfl, plain, by decide, _, rfl⟩, same, mirrors⟩

end RespLink
