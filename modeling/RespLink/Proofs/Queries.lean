import RespLink.Proofs.Searches
import RespLink.Proofs.Streams
import RespLink.Proofs.Walks

/-!
# Answers out of a stream

An inquiry reads what a Sentinel sends piece by piece and answers with the first piece that shows a
reply or a fault.  How the stream is cut matters only where a reply and a fault behind it can come
in one piece: the fault hides the reply then.

* `Inquiry.Ending`      what ends the wait for bytes;
* `Inquiry.verdict?`    the answer that some bytes bring, if they bring one;
* `Inquiry.heard`       the bytes that are read of some pieces, until there is an answer;
* `read_eq`, `foldl_heard`   reading is hearing, piece by piece and chunk by chunk;
* `heard_cases`         where it stops;
* `head?_replies_iff`   the first reply is the one that the plain decoder reads off the front;
* `answer_of_stream`    the answer, for every stream and every way to cut it.
-/

namespace RespLink
namespace Inquiry

/-- what ends the wait for bytes -/
inductive Ending where
  | closed
  | broken (cause : IoError)
  /-- the time limit is over -/
  | late
deriving DecidableEq, Repr

def Ending.signal : Ending → Signal
  | closed => .ended
  | broken cause => .broken cause
  | late => .elapsed

def Ending.error : Ending → Error
  | closed => .connection "Sentinel closed the connection"
  | broken cause => .io cause
  | late => .timeout

/-- all that an inquiry is told: the stream opens, these chunks come, and then nothing more -/
def told (socket : Socket) (chunks : List Bytes) (ending : Ending) : List Signal :=
  .connected socket :: chunks.map .heard ++ [ending.signal]

/-- the pieces in which the chunks are read -/
def cuts (chunks : List Bytes) : List Bytes := chunks.flatMap (Bytes.pieces readSize)

theorem cuts_cons (chunk : Bytes) (chunks : List Bytes) :
    cuts (chunk :: chunks) = Bytes.pieces readSize chunk ++ cuts chunks := List.flatMap_cons

theorem flatten_cuts (chunks : List Bytes) : (cuts chunks).flatten = chunks.flatten := by
  induction chunks with
  | nil => rfl
  | cons chunk chunks ih =>
    rw [cuts_cons, List.flatten_append, Bytes.flatten_pieces, List.flatten_cons, ih]

/-! ## what bytes bring -/

/-- a fault, else the first reply -/
def verdict? (bs : Bytes) : Option (Except Error Endpoint) :=
  match (Fed.of bs).fault with
  | some why => some (.error why.toError)
  | none => (Fed.of bs).replies.head?.map masterAddress

/-- where an inquiry stands that has read these bytes -/
def stands (socket : Nat) (bs : Bytes) : Inquiry :=
  match verdict? bs with
  | some answer => done answer
  | none => reading socket (Fed.of bs).parser

/-- these bytes, and those of the pieces until there is an answer -/
def heard (bs : Bytes) : List Bytes → Bytes
  | [] => bs
  | piece :: rest => if (verdict? bs).isSome then bs else heard (bs ++ piece) rest

section
variable {bs : Bytes} {socket : Nat}

theorem verdict?_eq_none_iff : verdict? bs = none ↔ Pending bs := by
  rw [verdict?, Pending]
  cases (Fed.of bs).fault with
  | some why => exact ⟨nofun, nofun⟩
  | none => rw [Option.map_eq_none_iff, List.head?_eq_none_iff, and_iff_left rfl]

theorem isSome_verdict?_iff : (verdict? bs).isSome ↔ ¬ Pending bs := by
  rw [← verdict?_eq_none_iff, Option.isSome_iff_ne_none]

theorem stands_of_pending (h : Pending bs) : stands socket bs = reading socket (Fed.of bs).parser := by
  rw [stands, verdict?_eq_none_iff.mpr h]

theorem stands_of_some {answer : Except Error Endpoint} (h : verdict? bs = some answer) :
    stands socket bs = done answer := by
  rw [stands, h]

theorem heard_cons_of_pending (h : Pending bs) (piece : Bytes) (rest : List Bytes) :
    heard bs (piece :: rest) = heard (bs ++ piece) rest := by
  rw [heard, if_neg fun some => isSome_verdict?_iff.mp some h]

theorem heard_of_settled (h : ¬ Pending bs) (pieces : List Bytes) : heard bs pieces = bs := by
  cases pieces with
  | nil => rfl
  | cons piece rest => rw [heard, if_pos (isSome_verdict?_iff.mpr h)]

theorem heard_append (front back : List Bytes) :
    heard bs (front ++ back) = heard (heard bs front) back := by
  induction front generalizing bs with
  | nil => rfl
  | cons piece front ih =>
    by_cases pending : Pending bs
    · rw [List.cons_append, heard_cons_of_pending pending, heard_cons_of_pending pending, ih]
    · rw [heard_of_settled pending, heard_of_settled pending, heard_of_settled pending]

/-! ## reading is hearing -/

theorem read_eq (h : Pending bs) (pieces : List Bytes) :
    (read socket (Fed.of bs).parser pieces).1 = stands socket (heard bs pieces) := by
  induction pieces generalizing bs with
  | nil => exact (stands_of_pending h).symm
  | cons piece rest ih =>
    rw [heard_cons_of_pending h, read, Parser.feedAll, h.feed]
    cases fault : (Fed.of (bs ++ piece)).fault with
    | some why =>
      have brings : verdict? (bs ++ piece) = some (.error why.toError) := by rw [verdict?, fault]
      have settled := isSome_verdict?_iff.mp (Option.isSome_of_eq_some brings)
      rw [heard_of_settled settled, stands_of_some brings]
      rfl
    | none =>
      cases replies : (Fed.of (bs ++ piece)).replies with
      | nil => exact ih ⟨replies, fault⟩
      | cons reply others =>
        have brings : verdict? (bs ++ piece) = some (masterAddress reply) := by
          rw [verdict?, fault, replies]
          rfl
        have settled := isSome_verdict?_iff.mp (Option.isSome_of_eq_some brings)
        rw [heard_of_settled settled, stands_of_some brings]
        rfl

/-- one chunk; an inquiry that is done hears nothing -/
theorem step_heard (chunk : Bytes) : ((stands socket bs).step (.heard chunk)).1 =
    stands socket (heard bs (Bytes.pieces readSize chunk)) := by
  by_cases pending : Pending bs
  · rw [stands_of_pending pending]
    exact read_eq pending _
  · obtain ⟨answer, brings⟩ := Option.isSome_iff_exists.mp (isSome_verdict?_iff.mpr pending)
    rw [heard_of_settled pending, stands_of_some brings]
    rfl

theorem foldl_heard (chunks : List Bytes) :
    (chunks.map Signal.heard).foldl (fun q signal => (q.step signal).1) (stands socket bs) =
      stands socket (heard bs (cuts chunks)) := by
  induction chunks generalizing bs with
  | nil => rfl
  | cons chunk chunks ih =>
    rw [List.map_cons, List.foldl_cons, step_heard, ih, cuts_cons, heard_append]

theorem step_ending (ending : Ending) : ((stands socket bs).step ending.signal).1 =
    done ((verdict? bs).getD (.error ending.error)) := by
  rw [stands]
  cases verdict? bs <;> cases ending <;> rfl

/-- an answer is the last word -/
theorem foldl_done (answer : Except Error Endpoint) (signals : List Signal) :
    signals.foldl (fun q signal => (q.step signal).1) (done answer) = done answer := by
  induction signals with
  | nil => rfl
  | cons x signals ih => exact ih

/-- a stream that takes the question -/
theorem after_told {socket : Socket} (takes : socket.write.fault? = none) (master : String)
    (chunks : List Bytes) (ending : Ending) :
    after master (told socket chunks ending) =
      done ((verdict? (heard [] (cuts chunks))).getD (.error ending.error)) := by
  have opens : ((dialling master).step (.connected socket)).1 = stands socket.number [] := by
    rw [stands_of_pending pending_nil]
    exact congrArg Prod.fst (ask_of_sound takes master)
  rw [told, after_concat, ← step_ending, ← foldl_heard, ← opens]
  rfl

/-- a stream that does not take it: nothing is read -/
theorem after_told_of_fault {socket : Socket} {cause : IoError}
    (fault : socket.write.fault? = some cause) (master : String) (chunks : List Bytes)
    (ending : Ending) : after master (told socket chunks ending) = done (.error (.io cause)) := by
  have fails : ((dialling master).step (.connected socket)).1 = done (.error (.io cause)) :=
    congrArg Prod.fst (ask_of_fault fault master)
  rw [told, List.cons_append, after, List.foldl_cons, fails]
  exact foldl_done _ _

/-! ## where reading stops -/

/-- either all pieces are read and bring nothing, or one of them is the first to bring an answer -/
theorem heard_cases (h : Pending bs) (pieces : List Bytes) :
    (heard bs pieces = bs ++ pieces.flatten ∧ Pending (bs ++ pieces.flatten)) ∨
      ∃ before piece later, pieces = before ++ piece :: later ∧
        heard bs pieces = bs ++ before.flatten ++ piece ∧ Pending (bs ++ before.flatten) ∧
        ¬ Pending (bs ++ before.flatten ++ piece) := by
  induction pieces generalizing bs with
  | nil =>
    rw [List.flatten_nil, List.append_nil]
    exact .inl ⟨rfl, h⟩
  | cons piece rest ih =>
    rw [heard_cons_of_pending h]
    by_cases pending : Pending (bs ++ piece)
    · obtain all | ⟨before, last, later, rfl, stops, waits, settled⟩ := ih pending
      · rw [List.flatten_cons, ← List.append_assoc]
        exact .inl all
      · refine .inr ⟨piece :: before, last, later, rfl, ?_⟩
        rw [List.flatten_cons, ← List.append_assoc]
        exact ⟨stops, waits, settled⟩
    · refine .inr ⟨[], piece, rest, rfl, ?_⟩
      rw [List.flatten_nil, List.append_nil]
      exact ⟨heard_of_settled pending rest, h, pending⟩

/-! ## the first reply -/

/-- what a parser delivers first is what the decoder reads off the front -/
theorem head?_replies_iff {reply : Reply} :
    (Fed.of bs).replies.head? = some reply ↔ ∃ rest, Reply.decode bs = .complete (reply, rest) := by
  rw [(Fed.of_reads bs).replies]
  cases read : Reply.decode bs with
  | complete found =>
    rw [Reply.readAll_of_complete read, List.head?_cons, Option.some.injEq]
    constructor
    · rintro rfl
      exact ⟨found.2, rfl⟩
    · rintro ⟨rest, same⟩
      cases same
      rfl
  | incomplete =>
    rw [Reply.readAll_of_incomplete read]
    exact ⟨nofun, nofun⟩
  | malformed why =>
    rw [Reply.readAll_of_malformed read]
    exact ⟨nofun, nofun⟩

theorem replies_eq_nil_iff : (Fed.of bs).replies = [] ↔
    ∀ reply rest, Reply.decode bs ≠ .complete (reply, rest) := by
  rw [← List.head?_eq_none_iff, Option.eq_none_iff_forall_ne_some]
  exact forall_congr' fun reply => head?_replies_iff.not.trans not_exists

/-- the bytes that settle an answer hold the first reply of the stream, if it has one: a fault in
front of it would stand -/
theorem decode_of_settled {more : Bytes} {reply : Reply} {rest : Bytes} (settled : ¬ Pending bs)
    (read : Reply.decode (bs ++ more) = .complete (reply, rest)) :
    ∃ rest, Reply.decode bs = .complete (reply, rest) := by
  cases replies : (Fed.of bs).replies with
  | cons first others =>
    obtain ⟨rest, own⟩ := head?_replies_iff.mp (congrArg List.head? replies)
    rw [Reply.sequential_decode.append own more] at read
    cases read
    exact ⟨rest, own⟩
  | nil =>
    cases fault : (Fed.of bs).fault with
    | none => exact absurd ⟨replies, fault⟩ settled
    | some why =>
      have none := (Fed.of_append_of_fault fault more).1.trans replies
      exact absurd read (replies_eq_nil_iff.mp none reply rest)

/-- and if it has none, they hold its fault -/
theorem fault_of_settled {more : Bytes} (settled : ¬ Pending bs)
    (none : (Fed.of (bs ++ more)).replies = []) :
    ∃ why, (Fed.of bs).fault = some why ∧ (Fed.of (bs ++ more)).fault = some why := by
  have early : (Fed.of bs).replies = [] := by
    rw [Fed.of_append] at none
    exact (List.append_eq_nil_iff.mp none).1
  cases fault : (Fed.of bs).fault with
  | none => exact absurd ⟨early, fault⟩ settled
  | some why => exact ⟨why, rfl, (Fed.of_append_of_fault fault more).2⟩

end

/-! ## the answer -/

section
variable (master : String) (chunks : List Bytes) (ending : Ending) {socket : Socket}

/-- a stream with a complete reply: the piece that brings its end says whether it counts -/
theorem after_told_of_complete (takes : socket.write.fault? = none) {reply : Reply} {rest : Bytes}
    (read : Reply.decode chunks.flatten = .complete (reply, rest)) :
    ∃ before piece later, cuts chunks = before ++ piece :: later ∧ Pending before.flatten ∧
      (∃ more, Reply.decode (before.flatten ++ piece) = .complete (reply, more)) ∧
      after master (told socket chunks ending) =
        done (match (Fed.of (before.flatten ++ piece)).fault with
          | none => masterAddress reply
          | some why => .error why.toError) := by
  rw [← flatten_cuts] at read
  obtain ⟨_, silent, _⟩ | ⟨before, piece, later, split, stops, waits, settled⟩ :=
    heard_cases pending_nil (cuts chunks)
  · exact absurd read (replies_eq_nil_iff.mp silent reply rest)
  · rw [List.nil_append] at stops waits settled
    rw [split, List.flatten_append, List.flatten_cons, ← List.append_assoc] at read
    obtain ⟨more, own⟩ := decode_of_settled settled read
    refine ⟨before, piece, later, split, waits, ⟨more, own⟩, ?_⟩
    rw [after_told takes, stops, verdict?, head?_replies_iff.mpr ⟨more, own⟩]
    cases (Fed.of (before.flatten ++ piece)).fault <;> rfl

/-- a stream without one: its fault, or what ends the wait -/
theorem after_told_of_silent (takes : socket.write.fault? = none)
    (silent : (Fed.of chunks.flatten).replies = []) :
    after master (told socket chunks ending) =
      done (.error (match (Fed.of chunks.flatten).fault with
        | none => ending.error
        | some why => why.toError)) := by
  rw [← flatten_cuts] at silent ⊢
  rw [after_told takes]
  obtain ⟨stops, pending⟩ | ⟨before, piece, later, split, stops, _, settled⟩ :=
    heard_cases pending_nil (cuts chunks)
  · rw [List.nil_append] at stops pending
    rw [stops, verdict?_eq_none_iff.mpr pending, pending.2]
    rfl
  · rw [List.nil_append] at stops settled
    have whole : (cuts chunks).flatten = before.flatten ++ piece ++ later.flatten := by
      rw [split, List.flatten_append, List.flatten_cons, List.append_assoc]
    rw [whole] at silent ⊢
    obtain ⟨why, own, all⟩ := fault_of_settled settled silent
    rw [stops, verdict?, own, all]
    rfl

/-- a fault that a stream does not have none of its beginnings has -/
theorem fault_eq_none_of_append {bs more : Bytes} (sound : (Fed.of (bs ++ more)).fault = none) :
    (Fed.of bs).fault = none := by
  cases fault : (Fed.of bs).fault with
  | none => rfl
  | some why =>
    rw [(Fed.of_append_of_fault fault more).2] at sound
    cases sound

theorem after_told_of_sound (takes : socket.write.fault? = none) {reply : Reply} {rest : Bytes}
    (read : Reply.decode chunks.flatten = .complete (reply, rest))
    (sound : (Fed.of chunks.flatten).fault = none) :
    after master (told socket chunks ending) = done (masterAddress reply) := by
  obtain ⟨before, piece, later, split, _, _, same⟩ :=
    after_told_of_complete master chunks ending takes read
  rw [← flatten_cuts, split, List.flatten_append, List.flatten_cons, ← List.append_assoc] at sound
  rw [same, fault_eq_none_of_append sound]

/-- **The answer of a Sentinel depends on its bytes.**  A stream that cannot take the question
answers with that.  On one that can, if what comes has no fault, or no complete reply, then every
way to cut it gives the same answer: that of the first reply, whatever follows it, else the fault,
else what ends the wait.  If it has both, the answer is that of the first reply just when the piece
that brings the end of this reply shows no fault behind it. -/
theorem answer_of_stream (socket : Socket) :
    (∀ cause, socket.write.fault? = some cause →
      after master (told socket chunks ending) = done (.error (.io cause))) ∧
    (socket.write.fault? = none →
      (∀ reply rest, Reply.decode chunks.flatten = .complete (reply, rest) →
        ((Fed.of chunks.flatten).fault = none →
          after master (told socket chunks ending) = done (masterAddress reply)) ∧
        ∃ before piece later, cuts chunks = before ++ piece :: later ∧ Pending before.flatten ∧
          (∃ more, Reply.decode (before.flatten ++ piece) = .complete (reply, more)) ∧
          after master (told socket chunks ending) =
            done (match (Fed.of (before.flatten ++ piece)).fault with
              | none => masterAddress reply
              | some why => .error why.toError)) ∧
      ((∀ reply rest, Reply.decode chunks.flatten ≠ .complete (reply, rest)) →
        after master (told socket chunks ending) =
          done (.error (match (Fed.of chunks.flatten).fault with
            | none => ending.error
            | some why => why.toError))) ∧
      ∀ others : List Bytes, others.flatten = chunks.flatten →
        ((Fed.of chunks.flatten).fault = none ∨
          ∀ reply rest, Reply.decode chunks.flatten ≠ .complete (reply, rest)) →
        after master (told socket others ending) = after master (told socket chunks ending)) := by
  refine ⟨fun cause fault => after_told_of_fault fault master chunks ending, fun takes =>
    ⟨fun reply rest read => ⟨after_told_of_sound master chunks ending takes read,
      after_told_of_complete master chunks ending takes read⟩, fun silent =>
      after_told_of_silent master chunks ending takes (replies_eq_nil_iff.mpr silent),
      fun others same kind => ?_⟩⟩
  by_cases silent : (Fed.of chunks.flatten).replies = []
  · rw [after_told_of_silent master chunks ending takes silent]
    rw [← same] at silent ⊢
    exact after_told_of_silent master others ending takes silent
  · have sound := kind.resolve_right fun none => silent (replies_eq_nil_iff.mpr none)
    obtain ⟨reply, first⟩ := Option.ne_none_iff_exists'.mp (List.head?_eq_none_iff.not.mpr silent)
    obtain ⟨rest, read⟩ := head?_replies_iff.mp first
    rw [after_told_of_sound master chunks ending takes read sound]
    rw [← same] at read sound
    exact after_told_of_sound master others ending takes read sound

/-- a reply cut in a header, with the beginning of another behind it -/
theorem answer_of_stream_of_cuts :
    let stream : Bytes := Utf8.encode "*2\r\n$2\r\nm1\r\n$4\r\n6379\r\n*1\r\n"
    let parts : List Bytes := [stream.take 3, stream.drop 3]
    Reply.decode stream = .complete (.array [.ofText "m1", .ofText "6379"], Utf8.encode "*1\r\n") ∧
      (Fed.of stream).fault = none ∧
      after "main" (told (.fresh 1) [stream] .late) = done (.ok ⟨"m1", 6379⟩) ∧
      after "main" (told (.fresh 1) parts .late) = done (.ok ⟨"m1", 6379⟩) := by
  intro stream parts
  have whole : [stream].flatten = stream := List.append_nil stream
  have read : Reply.decode stream =
      .complete (.array [.ofText "m1", .ofText "6379"], Utf8.encode "*1\r\n") := by decide +kernel
  have sound : (Fed.of stream).fault = none := by decide +kernel
  have address : masterAddress (.array [.ofText "m1", .ofText "6379"]) = .ok ⟨"m1", 6379⟩ := by
    decide +kernel
  have same : parts.flatten = [stream].flatten := by decide +kernel
  rw [← whole] at read sound
  obtain ⟨first, -, cut⟩ := (answer_of_stream "main" [stream] .late (.fresh 1)).2 rfl
  have answer := ((first _ _ read).1 sound).trans (congrArg done address)
  rw [whole] at read sound
  exact ⟨read, sound, answer, (cut parts same (.inl (whole ▸ sound))).trans answer⟩

/-- a fault behind the reply hides it in the same chunk, and does not in the next one -/
theorem fault_hides_reply :
    let reply : Bytes := Utf8.encode "*2\r\n$2\r\nm1\r\n$4\r\n6379\r\n"
    let fault : Bytes := Utf8.encode "X"
    Reply.decode (reply ++ fault) = .complete (.array [.ofText "m1", .ofText "6379"], fault) ∧
      after "main" (told (.fresh 1) [reply ++ fault] .late) =
        done (.error (.protocol "Invalid RESP type byte: 'X'")) ∧
      after "main" (told (.fresh 1) [reply, fault] .late) = done (.ok ⟨"m1", 6379⟩) := by
  intro reply fault
  have together : verdict? (heard [] (cuts [reply ++ fault])) =
      some (.error (.protocol "Invalid RESP type byte: 'X'")) := by decide +kernel
  have apart : verdict? (heard [] (cuts [reply, fault])) = some (.ok ⟨"m1", 6379⟩) := by
    decide +kernel
  rw [after_told rfl, after_told rfl, together, apart]
  exact ⟨by decide +kernel, rfl, rfl⟩

end

end Inquiry
end RespLink
