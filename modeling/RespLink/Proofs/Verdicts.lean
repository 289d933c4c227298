import RespLink.Proofs.Streams

/-!
# Verdicts that stand

A reader speaks once: not before the last byte that it uses, and never otherwise afterwards.  A
parser that has met a fault meets nothing else.

* `Sequential.incomplete_of_short`   bytes that end inside the ones that a reader uses are
                                     incomplete;
* `Reply.decode_append_and_take`   the three verdicts of the decoder, on more bytes and on a
                               beginning;
* `Parser.feeds`               what each of several feeds delivers and returns;
* `Parser.Stuck`               a parser in front of a fault: one feed leaves it there, so all do;
* `Parser.feeds_after_fault`   nothing but the fault comes out of a parser that has met one, until
                               it is reset.
-/

namespace RespLink

/-! ## readers -/

/-- a reader waits for the last of the bytes that it uses -/
theorem Sequential.incomplete_of_short {α : Type} {read : Bytes → Verdict (α × Bytes)}
    (seq : Sequential read) {bs rest : Bytes} {a : α} (h : read bs = .complete (a, rest)) {m : Nat}
    (short : m + rest.length < bs.length) : read (bs.take m) = .incomplete := by
  cases early : read (bs.take m) with
  | incomplete => rfl
  | malformed why =>
    have same := seq.malformed early (bs.drop m)
    rw [List.take_append_drop, h] at same
    cases same
  | complete found =>
    obtain ⟨b, left⟩ := found
    have same := seq.append early (bs.drop m)
    rw [List.take_append_drop, h] at same
    -- what is left behind the shorter beginning is all of what lies behind it
    have more : rest = left ++ bs.drop m := (Prod.mk.inj (Verdict.complete.inj same)).2
    have size : rest.length = left.length + (bs.length - m) := by
      rw [more, List.length_append, List.length_drop]
    omega

namespace Reply

/-- **The verdicts of the decoder stand.**  A reply is read off the bytes that it takes, whatever
follows them, and while one of these bytes is missing the decoder waits; bytes that are malformed
stay so, for the same reason. -/
theorem decode_append_and_take (d : Bytes) :
    (∀ v rest, decode d = .complete (v, rest) →
      ∃ used, d = used ++ rest ∧ used ≠ [] ∧
        (∀ t, decode (d ++ t) = .complete (v, rest ++ t)) ∧
        ∀ m, m < used.length → decode (d.take m) = .incomplete) ∧
    ∀ why, decode d = .malformed why → ∀ t, decode (d ++ t) = .malformed why := by
  refine ⟨fun v rest read => ?_, fun why bad => sequential_decode.malformed bad⟩
  obtain ⟨used, all, _⟩ := sequential_decode.complete read
  have size : d.length = used.length + rest.length := by rw [all, List.length_append]
  have shorter := length_lt_of_decode read
  refine ⟨used, all, ?_, sequential_decode.append read, fun m short => ?_⟩
  · rintro rfl
    rw [size, List.length_nil] at shorter
    omega
  · exact sequential_decode.incomplete_of_short read (by omega)

/-- an array whose bulk string is an end of line, cut in the end of the line behind it; and a length
that is none, with bytes behind it that would be a reply -/
theorem decode_append_and_take_of_cuts :
    let d : Bytes := Utf8.encode "*2\r\n$2\r\n\r\n\r\n:+7\r\n-"
    let bad : Bytes := Utf8.encode "*1\r\n$-2\r\n"
    (decode d = .complete (.array [.bulk Bytes.crlf, .integer 7], [0x2D]) ∧
      ∃ used, d = used ++ [0x2D] ∧ 11 < used.length ∧ decode (d.take 11) = .incomplete ∧
        decode (d ++ d) = .complete (.array [.bulk Bytes.crlf, .integer 7], [0x2D] ++ d)) ∧
      decode bad = .malformed (.bulkLength (-2)) ∧
        decode (bad ++ d) = .malformed (.bulkLength (-2)) := by
  intro d bad
  have read : decode d = .complete (.array [.bulk Bytes.crlf, .integer 7], [0x2D]) := by
    decide +kernel
  have fails : decode bad = .malformed (.bulkLength (-2)) := by decide +kernel
  obtain ⟨used, all, _, more, less⟩ := (decode_append_and_take d).1 _ _ read
  have size : used.length = 17 := by
    have long : d.length = 18 := by decide +kernel
    rw [all, List.length_append] at long
    exact Nat.succ.inj long
  exact ⟨⟨read, used, all, by omega, less 11 (by omega), more d⟩, fails,
    (decode_append_and_take bad).2 _ fails d⟩

end Reply

/-! ## parsers -/

namespace Parser

/-- what each of these feeds delivers and returns, past any fault -/
def feeds (p : Parser) : List Bytes → List (List Reply × Option Malformed)
  | [] => []
  | chunk :: rest =>
    let fed := p.feed chunk
    (fed.replies, fed.fault) :: feeds fed.parser rest

/-- all that the parser makes of its bytes is this fault -/
structure Stuck (why : Malformed) (p : Parser) : Prop where
  resumes : p.Resumes
  silent : (Fed.of p.buffer).replies = []
  fault : (Fed.of p.buffer).fault = some why

section
variable {p : Parser} {chunk : Bytes} {why : Malformed}

/-- whatever a feed has delivered before its fault, the parser stands in front of the fault -/
theorem stuck_of_fault (resumes : p.Resumes) (h : (p.feed chunk).fault = some why) :
    Stuck why (p.feed chunk).parser := by
  rw [Fed.feed_of_resumes resumes] at h ⊢
  generalize p.buffer ++ chunk = bs at h
  have left := Fed.resumes_of bs
  -- feeding nothing once more shows what is made of the bytes that are left
  have again := Fed.of_append bs []
  rw [List.append_nil, Fed.feed, Fed.feed_of_resumes left, List.append_nil] at again
  have replies := congrArg Fed.replies again
  have fault := congrArg Fed.fault again
  refine ⟨left, List.append_right_eq_self.mp replies.symm, ?_⟩
  exact fault.symm.trans h

theorem Stuck.feed (h : Stuck why p) (chunk : Bytes) :
    (p.feed chunk).replies = [] ∧ (p.feed chunk).fault = some why ∧
      Stuck why (p.feed chunk).parser := by
  obtain ⟨replies, fault⟩ := Fed.of_append_of_fault h.fault chunk
  rw [← Fed.feed_of_resumes h.resumes] at replies fault
  exact ⟨replies.trans h.silent, fault, stuck_of_fault h.resumes fault⟩

theorem Stuck.feeds (h : Stuck why p) (chunks : List Bytes) :
    p.feeds chunks = List.replicate chunks.length ([], some why) := by
  induction chunks generalizing p with
  | nil => rfl
  | cons chunk rest ih =>
    obtain ⟨replies, fault, stuck⟩ := h.feed chunk
    rw [Parser.feeds, replies, fault, ih stuck]
    rfl

end

/-- **A fault stands until a reset.**  When a feed has met a fault, every later feed, of any bytes,
delivers nothing and meets the same fault.  A parser that is reset, after any of these feeds, does
with every chunk what a new one does: of the bytes before nothing is left. -/
theorem feeds_after_fault {p : Parser} (reached : p.Reachable) {chunk : Bytes} {why : Malformed}
    (fault : (p.feed chunk).fault = some why) (later : List Bytes) :
    (p.feed chunk).parser.feeds later = List.replicate later.length ([], some why) ∧
    ∀ chunks : List Bytes,
      let fresh := ((p.feed chunk).parser.feedOn later).parser.reset
      fresh.feeds chunks = empty.feeds chunks ∧ fresh.feedOn chunks = empty.feedOn chunks ∧
        (fresh.feedOn chunks).Reads (Reply.readAll chunks.flatten) := by
  refine ⟨(stuck_of_fault reached.resumes fault).feeds later, fun chunks => ?_⟩
  exact ⟨rfl, rfl, reads_of_feedOn chunks⟩

/-- a reply, then an array whose bulk string has another end: the frame is complete, and the decoder
meets the fault -/
theorem feeds_after_fault_of_unterminated :
    let chunk : Bytes := Utf8.encode ":1\r\n*1\r\n$1\r\nabc"
    let later : List Bytes := [[], Utf8.encode "+OK\r\n", [0x0D]]
    (empty.feed chunk).replies = [.integer 1] ∧
      (empty.feed chunk).fault = some .unterminated ∧
      (empty.feed chunk).parser.feeds later = List.replicate 3 ([], some .unterminated) ∧
      ((empty.feed chunk).parser.feedOn later).parser.reset.feeds [Utf8.encode "+OK\r\n"]
        = empty.feeds [Utf8.encode "+OK\r\n"] := by
  intro chunk later
  have fault : (empty.feed chunk).fault = some .unterminated := by decide +kernel
  obtain ⟨same, fresh⟩ := feeds_after_fault .fresh fault later
  exact ⟨by decide +kernel, fault, same, (fresh _).1⟩

end Parser
end RespLink
