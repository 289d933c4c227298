import RespLink.Proofs.RoundTrip
import RespLink.Proofs.Streams
import RespLink.Command

/-!
# Commands behind each other

A pipeline is one frame after another.  Every length is announced before the bytes it counts, so the
bytes of an argument are never taken for anything else, and the reader of the frames gets the
commands that were written, each as an array of its own.

* `Wording`   what a command says: its verb and its arguments;
* `Fed.of_encodeItems`   replies in a row are what a parser makes of their bytes;
* `Wording.frame_append_inj`   a frame shows where it ends, whatever its lengths and what follows;
* `pipeline_reads_back`   the commands of a pipeline, cut anywhere; no two pipelines share their bytes.
-/

namespace RespLink

/-- the verb and the arguments, as bytes, of one command -/
structure Wording where
  verb : String
  args : List Bytes
deriving DecidableEq, Repr

namespace Wording

def frame (w : Wording) : Bytes := encodeCommand w.verb w.args

/-- the byte strings of the command, the verb first -/
def bulks (w : Wording) : List Bytes := Utf8.encode w.verb :: w.args

/-- the command as the server reads it -/
def reply (w : Wording) : Reply := .array (w.bulks.map Reply.bulk)

/-- no list in memory is longer than this -/
structure Fits (w : Wording) : Prop where
  count : w.bulks.length ≤ maxLength
  bulks : ∀ bytes ∈ w.bulks, bytes.length ≤ maxLength

theorem frame_eq (w : Wording) : w.frame = w.reply.encode := encodeCommand_eq w.verb w.args

theorem frames_eq (ws : List Wording) : ws.flatMap frame = Reply.encodeItems (ws.map reply) := by
  induction ws with
  | nil => rw [List.flatMap_nil, List.map_nil, Reply.encodeItems_nil]
  | cons w ws ih => rw [List.flatMap_cons, List.map_cons, Reply.encodeItems_cons, ih, frame_eq]

/-- a command needs one level of arrays -/
theorem wireable_reply {w : Wording} (fits : w.Fits) : w.reply.Wireable := by
  have flat (bulks : List Bytes) : Reply.depthItems (bulks.map Reply.bulk) = 0 := by
    induction bulks with
    | nil => rfl
    | cons bytes bulks ih =>
      show max 0 (Reply.depthItems (bulks.map Reply.bulk)) = 0
      rw [ih]
      rfl
  have plain (bulks : List Bytes) (short : ∀ bytes ∈ bulks, bytes.length ≤ maxLength) :
      Reply.PlainItems (bulks.map Reply.bulk) := by
    induction bulks with
    | nil => trivial
    | cons bytes bulks ih =>
      exact ⟨short bytes List.mem_cons_self,
        ih fun other inside => short other (List.mem_cons_of_mem _ inside)⟩
  refine ⟨?_, ?_, plain _ fits.bulks⟩
  · show Reply.depthItems (w.bulks.map Reply.bulk) + 1 ≤ maxDepth
    rw [flat]
    decide
  · rw [List.length_map]
    exact fits.count

end Wording

/-- what a request says under the encoding of its connection -/
def Request.wording (r : Request) (e : Encoding) : Wording :=
  ⟨r.verb, r.args.map (Arg.toBytes (r.encoding e))⟩

/-! ## reading -/

namespace Fed
open RespLink.Parser

/-- a reply in front is delivered first, and the bytes behind it are read as if they came alone -/
theorem of_encode_append {reply : Reply} (wireable : reply.Wireable) (rest : Bytes) :
    Fed.of (reply.encode ++ rest) =
      ⟨(Fed.of rest).parser, reply :: (Fed.of rest).replies, (Fed.of rest).fault⟩ := by
  have read (more : Bytes) : Reply.decode (reply.encode ++ more) = .complete (reply, more) :=
    Reply.decodeWithin_encode reply maxDepth wireable.depth wireable.plain more
  have scan : (holding (reply.encode ++ rest)).scan = .frame reply.encode.length := by
    rw [scan_of_decode (read rest), List.length_append, Nat.add_sub_cancel]
  have alone : Reply.decode ((reply.encode ++ rest).take reply.encode.length)
      = .complete (reply, []) := by
    rw [List.take_left, ← List.append_nil reply.encode]
    exact read []
  rw [of_frame scan, round_of_read alone, List.drop_left]

/-- replies in a row are delivered, and nothing is left of their bytes -/
theorem of_encodeItems {replies : List Reply} (wireable : ∀ r ∈ replies, r.Wireable) :
    Fed.of (Reply.encodeItems replies) = ⟨.empty, replies, none⟩ := by
  induction replies with
  | nil =>
    rw [Reply.encodeItems_nil]
    rfl
  | cons reply replies ih =>
    rw [Reply.encodeItems_cons, of_encode_append (wireable reply List.mem_cons_self),
      ih fun r inside => wireable r (List.mem_cons_of_mem _ inside)]

end Fed

/-- the plain decoder finds nothing wrong behind them -/
theorem Reply.readAll_encodeItems {replies : List Reply} (wireable : ∀ r ∈ replies, r.Wireable) :
    readAll (encodeItems replies) = ⟨replies, [], none⟩ := by
  induction replies with
  | nil =>
    rw [encodeItems_nil]
    exact readAll_of_incomplete rfl
  | cons reply replies ih =>
    have first := wireable reply List.mem_cons_self
    have read := decodeWithin_encode reply maxDepth first.depth first.plain (encodeItems replies)
    rw [encodeItems_cons, readAll_of_complete read,
      ih fun r inside => wireable r (List.mem_cons_of_mem _ inside)]

/-! ## frames show where they end -/

theorem Utf8.encode_inj {s t : String} (h : Utf8.encode s = Utf8.encode t) : s = t := by
  rw [← Utf8.lossy_encode s, ← Utf8.lossy_encode t, h]

theorem Numeral.ofNat_inj {m n : Nat} (h : Numeral.ofNat m = Numeral.ofNat n) : m = n := by
  have digits : Nat.toDigits 10 m = Nat.toDigits 10 n := String.ofList_injective h
  have left : Numeral.readInt (max m n) (Nat.toDigits 10 m) = .ok (m : Int) :=
    Numeral.readInt_toDigits (Nat.le_max_left m n)
  have right : Numeral.readInt (max m n) (Nat.toDigits 10 n) = .ok (n : Int) :=
    Numeral.readInt_toDigits (Nat.le_max_right m n)
  rw [digits, right] at left
  exact (Int.ofNat_inj.mp (Except.ok.inj left)).symm

section
variable {x y : Bytes}

/-- a header ends with its line -/
theorem header_append_inj {t : UInt8} {m n : Nat}
    (h : headerLine t (decimal m) ++ x = headerLine t (decimal n) ++ y) : m = n ∧ x = y := by
  rw [headerLine_append, headerLine_append] at h
  have lines := congrArg frontLine (List.cons.inj h).2
  have left : frontLine (decimal m ++ Bytes.crlf ++ x) = .complete (decimal m, x) :=
    frontLine_text (plain_ofInt m) x
  have right : frontLine (decimal n ++ Bytes.crlf ++ y) = .complete (decimal n, y) :=
    frontLine_text (plain_ofInt n) y
  rw [left, right] at lines
  obtain ⟨same, rest⟩ := Prod.mk.inj (Verdict.complete.inj lines)
  exact ⟨Numeral.ofNat_inj (Utf8.encode_inj same), rest⟩

theorem encodeBulk_append_inj {a b : Bytes} (h : encodeBulk a ++ x = encodeBulk b ++ y) :
    a = b ∧ x = y := by
  rw [encodeBulk, encodeBulk, List.append_assoc, List.append_assoc, List.append_assoc,
    List.append_assoc] at h
  obtain ⟨length, payload⟩ := header_append_inj h
  obtain ⟨same, rest⟩ := List.append_inj payload length
  exact ⟨same, List.append_cancel_left rest⟩

theorem bulks_append_inj {a b : List Bytes} (count : a.length = b.length)
    (h : a.flatMap encodeBulk ++ x = b.flatMap encodeBulk ++ y) : a = b ∧ x = y := by
  induction a generalizing b with
  | nil =>
    cases b with
    | nil => exact ⟨rfl, h⟩
    | cons bytes b => cases count
  | cons bytes a ih =>
    cases b with
    | nil => cases count
    | cons bytes' b =>
      rw [List.flatMap_cons, List.flatMap_cons, List.append_assoc, List.append_assoc] at h
      obtain ⟨rfl, later⟩ := encodeBulk_append_inj h
      obtain ⟨rfl, rest⟩ := ih (Nat.succ.inj count) later
      exact ⟨rfl, rest⟩

theorem Wording.frame_append_inj {w v : Wording} (h : w.frame ++ x = v.frame ++ y) :
    w = v ∧ x = y := by
  have frame (w : Wording) (z : Bytes) : w.frame ++ z
      = headerLine 0x2A (decimal (1 + w.args.length)) ++ (w.bulks.flatMap encodeBulk ++ z) := by
    rw [Wording.frame, encodeCommand, Wording.bulks, List.flatMap_cons]
    simp only [List.append_assoc]
  rw [frame, frame] at h
  obtain ⟨count, bulks⟩ := header_append_inj h
  have lengths : w.bulks.length = v.bulks.length := by
    rw [Wording.bulks, Wording.bulks, List.length_cons, List.length_cons]
    omega
  obtain ⟨same, rest⟩ := bulks_append_inj lengths bulks
  obtain ⟨verb, args⟩ := List.cons.inj same
  refine ⟨?_, rest⟩
  cases w
  cases v
  rw [Wording.mk.injEq]
  exact ⟨Utf8.encode_inj verb, args⟩

end

theorem Wording.frame_ne_nil (w : Wording) : w.frame ≠ [] := List.cons_ne_nil _ _

/-- no two pipelines share their bytes -/
theorem Wording.frames_inj {ws vs : List Wording} (h : ws.flatMap frame = vs.flatMap frame) :
    ws = vs := by
  induction ws generalizing vs with
  | nil =>
    cases vs with
    | nil => rfl
    | cons v vs =>
      rw [List.flatMap_nil, List.flatMap_cons] at h
      exact absurd (List.append_eq_nil_iff.mp h.symm).1 v.frame_ne_nil
  | cons w ws ih =>
    cases vs with
    | nil =>
      rw [List.flatMap_nil, List.flatMap_cons] at h
      exact absurd (List.append_eq_nil_iff.mp h).1 w.frame_ne_nil
    | cons v vs =>
      rw [List.flatMap_cons, List.flatMap_cons] at h
      obtain ⟨rfl, rest⟩ := frame_append_inj h
      rw [ih rest]

/-- **A pipeline is read back as its commands.**  However its bytes are cut, a parser delivers one
array for each command, in order, with the verb and the arguments byte by byte, is at rest after
them, and meets no fault on the way.  Other commands have other bytes. -/
theorem pipeline_reads_back :
    (∀ (ws : List Wording) (chunks : List Bytes), (∀ w ∈ ws, w.Fits) →
      chunks.flatten = ws.flatMap Wording.frame →
      Parser.empty.feedOn chunks =
          ⟨.empty, ws.map fun w => .array (.bulk (Utf8.encode w.verb) :: w.args.map .bulk), none⟩ ∧
        Parser.empty.feedChunks chunks = Parser.empty.feedOn chunks ∧
        ∀ met, met <+: chunks → (Parser.empty.feedOn met).fault = none) ∧
    ∀ ws vs : List Wording, ws ≠ vs → ws.flatMap Wording.frame ≠ vs.flatMap Wording.frame := by
  refine ⟨fun ws chunks fits cut => ?_, fun ws vs apart same => apart (Wording.frames_inj same)⟩
  have wireable : ∀ r ∈ ws.map Wording.reply, r.Wireable := by
    intro r hr
    obtain ⟨w, hw, rfl⟩ := List.mem_map.mp hr
    exact Wording.wireable_reply (fits w hw)
  have whole : Parser.empty.feedOn chunks = ⟨.empty, ws.map Wording.reply, none⟩ := by
    rw [Parser.feedOn_empty, cut, Wording.frames_eq, Fed.of_encodeItems wireable]
  -- a fault on the way would still be there in the end
  have sound (met : List Bytes) (front : met <+: chunks) :
      (Parser.empty.feedOn met).fault = none := by
    refine Decidable.not_not.mp fun fault => Parser.fault_of_prefix front fault ?_
    rw [cut, Wording.frames_eq, Reply.readAll_encodeItems wireable]
  refine ⟨whole, ?_, sound⟩
  obtain ⟨met, rest, rfl, same, none | fault⟩ := Parser.feedChunks_eq_feedOn Parser.empty chunks
  · rw [same, none, List.append_nil]
  · exact absurd (sound met (List.prefix_append met rest)) fault

/-- arguments that look like frames, an empty one, and one that no text gives, cut inside a length,
inside an end of a line and inside an argument -/
theorem pipeline_reads_back_of_cuts :
    let set := (Request.ofVerb "set").withArgs
      [.text "k", .binary [0x24, 0x2D, 0x31, 0x0D, 0x0A, 0x2A, 0xFF]]
    let get := (Request.ofVerb "get").withArgs [.text ""]
    let ws := [set.wording .utf8, get.wording .utf8]
    let whole := ws.flatMap Wording.frame
    let chunks := [whole.take 6, (whole.drop 6).take 21, [], whole.drop 27]
    (∀ w ∈ ws, w.Fits) ∧ chunks.flatten = whole ∧
      Parser.empty.feedOn chunks = ⟨.empty, [.array [.ofText "SET", .ofText "k",
          .bulk [0x24, 0x2D, 0x31, 0x0D, 0x0A, 0x2A, 0xFF]], .array [.ofText "GET", .bulk []]], none⟩ ∧
        whole ≠ (ws.reverse).flatMap Wording.frame := by
  intro set get ws whole chunks
  have few (n : Nat) (small : n ≤ 7) : n ≤ maxLength := Nat.le_trans small (by decide)
  have fits : ∀ w ∈ ws, w.Fits := by
    have counts : ∀ w ∈ ws, w.bulks.length ≤ 7 ∧ ∀ bytes ∈ w.bulks, bytes.length ≤ 7 := by
      decide +kernel
    exact fun w hw => ⟨few _ (counts w hw).1, fun bytes hb => few _ ((counts w hw).2 bytes hb)⟩
  have cut : chunks.flatten = whole := by decide +kernel
  have apart : ws ≠ ws.reverse := by decide +kernel
  exact ⟨fits, cut, (pipeline_reads_back.1 ws chunks fits cut).1,
    pipeline_reads_back.2 ws ws.reverse apart⟩

end RespLink
