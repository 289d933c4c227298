import RespLink.Proofs.Framing

/-!
# The replies of a stream

What a parser delivers is what the plain decoder reads, applied to the front of the stream until it
finds no complete reply.

* `readAll`   the replies that the decoder reads, the bytes behind them, and what is wrong there;
* `Shows`     whatever is wrong shows in the bytes: neither reader ends with a fault of framing;
* `Fed.of_reads`   one feed delivers these replies and keeps these bytes;
* `feedOn_reads`   so do the feeds of any pieces, up to the first fault and past it.
-/

namespace RespLink

/-! ## all replies of a stream -/

namespace Reply

/-- replies off the front of a byte string, the bytes behind them, and what is wrong with these -/
structure Reading where
  replies : List Reply
  rest : Bytes
  fault : Option Malformed
deriving DecidableEq, Repr

/-- decodes until no complete reply is left in front -/
def readAll (bs : Bytes) : Reading :=
  match _h : decode bs with
  | .complete (reply, rest) =>
    let later := readAll rest
    ⟨reply :: later.replies, later.rest, later.fault⟩
  | .incomplete => ⟨[], bs, none⟩
  | .malformed why => ⟨[], bs, some why⟩
termination_by bs.length
decreasing_by exact length_lt_of_decode _h

section
variable {bs : Bytes}

theorem readAll_of_complete {reply : Reply} {rest : Bytes}
    (h : decode bs = .complete (reply, rest)) :
    readAll bs = ⟨reply :: (readAll rest).replies, (readAll rest).rest, (readAll rest).fault⟩ := by
  rw [readAll]
  split
  · next found =>
    rw [h] at found
    cases found
    rfl
  · next found =>
    rw [h] at found
    cases found
  · next found =>
    rw [h] at found
    cases found

theorem readAll_of_incomplete (h : decode bs = .incomplete) : readAll bs = ⟨[], bs, none⟩ := by
  rw [readAll]
  split
  · next found =>
    rw [h] at found
    cases found
  · rfl
  · next found =>
    rw [h] at found
    cases found

theorem readAll_of_malformed {why : Malformed} (h : decode bs = .malformed why) :
    readAll bs = ⟨[], bs, some why⟩ := by
  rw [readAll]
  split
  · next found =>
    rw [h] at found
    cases found
  · next found =>
    rw [h] at found
    cases found
  · next found =>
    rw [h] at found
    cases found
    rfl

/-- what is wrong stays in front, whatever follows -/
theorem readAll_append {why : Malformed} (h : (readAll bs).fault = some why) (more : Bytes) :
    readAll (bs ++ more) = ⟨(readAll bs).replies, (readAll bs).rest ++ more, some why⟩ := by
  induction size : bs.length using Nat.strongRecOn generalizing bs with
  | ind n ih =>
    cases read : decode bs with
    | complete found =>
      obtain ⟨reply, rest⟩ := found
      have shorter := length_lt_of_decode read
      rw [readAll_of_complete read] at h ⊢
      rw [readAll_of_complete (sequential_decode.append read more), ih _ (by omega) h rfl]
    | incomplete =>
      rw [readAll_of_incomplete read] at h
      cases h
    | malformed why' =>
      rw [readAll_of_malformed read] at h ⊢
      cases h
      exact readAll_of_malformed (sequential_decode.malformed read more)

end
end Reply

/-! ## no fault of framing -/

/-- what is wrong, if anything, shows in the bytes themselves -/
def Shows {α : Type} (v : Verdict α) : Prop := v ≠ .malformed .framing

namespace Shows
variable {α β : Type}

theorem complete (a : α) : Shows (.complete a) := nofun

theorem incomplete : Shows (.incomplete : Verdict α) := nofun

theorem bind {v : Verdict α} (h : Shows v) {next : α → Verdict β} (on : ∀ a, Shows (next a)) :
    Shows (v.bind next) := by
  cases v with
  | complete a => exact on a
  | incomplete => exact incomplete
  | malformed why =>
    intro e
    cases e
    exact h rfl

theorem ite {c : Prop} [Decidable c] {v w : Verdict α} (yes : Shows v) (no : Shows w) :
    Shows (if c then v else w) := by
  split
  · exact yes
  · exact no

theorem frontLine (bs : Bytes) : Shows (frontLine bs) := by
  unfold RespLink.frontLine
  split
  · exact complete _
  · exact incomplete

theorem lineNumber (line : Bytes) : Shows (lineNumber line) := by
  unfold RespLink.lineNumber
  split
  · nofun
  · split
    · exact complete _
    · nofun

theorem frontNumber (bs : Bytes) : Shows (frontNumber bs) :=
  (frontLine bs).bind fun _ => (lineNumber _).bind fun _ => complete _

theorem decodeBulk (n : Int64) (bs : Bytes) : Shows (Reply.decodeBulk n bs) :=
  ite (complete _) (ite nofun (ite incomplete (ite (complete _) nofun)))

section
variable {read : Bytes → Verdict (Reply × Bytes)}

theorem decodeItems (h : ∀ bs, Shows (read bs)) (n : Nat) (bs : Bytes) :
    Shows (Reply.decodeItems read n bs) := by
  induction n generalizing bs with
  | zero => exact complete _
  | succ n ih => exact (h bs).bind fun found => (ih found.2).bind fun _ => complete _

theorem decodeArray (h : ∀ bs, Shows (read bs)) (bs : Bytes) : Shows (Reply.decodeArray read bs) :=
  (frontNumber bs).bind fun _ =>
    ite (complete _) (ite nofun ((decodeItems h _ _).bind fun _ => complete _))

theorem decodeWith (h : ∀ bs, Shows (read bs)) (bs : Bytes) : Shows (Reply.decodeWith read bs) := by
  cases bs with
  | nil => exact incomplete
  | cons t body =>
    exact ite ((frontLine body).bind fun _ => complete _)
      (ite ((frontLine body).bind fun _ => complete _)
        (ite ((frontNumber body).bind fun _ => complete _)
          (ite ((frontNumber body).bind fun _ => decodeBulk _ _) (ite (h body) nofun))))

end

theorem decodeWithin (n : Nat) (bs : Bytes) : Shows (Reply.decodeWithin n bs) := by
  induction n generalizing bs with
  | zero =>
    have deep : ∀ bs : Bytes, Shows (.malformed .tooDeep : Verdict (Reply × Bytes)) := fun _ => nofun
    exact decodeWith deep bs
  | succ n ih => exact decodeWith (decodeArray ih) bs

theorem ofBulk (n : Int64) (header : Nat) (after : Bytes) :
    Shows (Element.ofBulk n header after) :=
  ite (complete _) (ite nofun (ite incomplete (complete _)))

theorem ofArray (n : Int64) (header : Nat) : Shows (Element.ofArray n header) :=
  ite (complete _) (ite nofun (complete _))

theorem scan (depth : Nat) (t : UInt8) (body : Bytes) : Shows (Element.scan depth t body) :=
  ite nofun (ite nofun ((frontLine body).bind fun _ =>
    ite ((lineNumber _).bind fun _ => complete _)
      (ite ((lineNumber _).bind fun n => ofBulk n _ _)
        (ite ((lineNumber _).bind fun n => ofArray n _) (complete _)))))

end Shows

/-- text that goes on after another first character is another text -/
theorem append_ne_of_head? {text other : String} (some : text.toList.head? ≠ none)
    (differ : other.toList.head? ≠ text.toList.head?) (after : String) : text ++ after ≠ other := by
  rintro rfl
  rw [String.toList_append, List.head?_append] at differ
  cases first : text.toList.head? with
  | none => exact some first
  | some c =>
    rw [first] at differ
    exact differ rfl

/-- no other fault has the message of framing -/
theorem Malformed.message_ne {why : Malformed} (h : why ≠ .framing) :
    why.message ≠ "Reply does not match its framing" := by
  cases why with
  | framing => exact absurd rfl h
  | unterminated | tooDeep => decide
  | typeByte | number | bulkLength | arrayLength =>
    exact append_ne_of_head? (by decide) (by decide) _

theorem Course.shows {bs : Bytes} {offset offset' : Nat} {owed owed' : List Nat} {why : Malformed}
    (h : Course bs offset owed (.fault why offset' owed')) : why ≠ .framing := by
  generalize ends : Scan.fault why offset' owed' = scan at h
  induction h with
  | dry | waits | closes => cases ends
  | faults h =>
    cases ends
    rintro rfl
    exact Shows.scan _ _ _ h
  | opens _ _ ih => exact ih ends
  | passes _ _ _ ih => exact ih ends

namespace Fed
open RespLink.Parser Reply

/-- a feed delivers what the decoder reads; its fault is one that the decoder meets as well -/
structure Reads (fed : Fed) (read : Reading) : Prop where
  replies : fed.replies = read.replies
  buffer : fed.parser.buffer = read.rest
  sound : read.fault = none → fed.fault = none
  shows : fed.fault ≠ some .framing

section
variable {bs : Bytes} {offset : Nat} {owed : List Nat}

theorem reads_of_pending (scan : (holding bs).scan = .pending offset owed) :
    (Fed.of bs).Reads (readAll bs) := by
  rw [of_pending scan]
  cases read : decode bs with
  | complete found =>
    rw [scan_of_decode read] at scan
    cases scan
  | incomplete =>
    rw [readAll_of_incomplete read]
    exact ⟨rfl, rfl, fun _ => rfl, nofun⟩
  | malformed why =>
    rw [readAll_of_malformed read]
    exact ⟨rfl, rfl, fun _ => rfl, nofun⟩

theorem reads_of_fault {why : Malformed} (scan : (holding bs).scan = .fault why offset owed) :
    (Fed.of bs).Reads (readAll bs) := by
  have shows : why ≠ .framing := by
    have course := course_run bs 0 []
    change Course bs 0 [] (holding bs).scan at course
    rw [scan] at course
    exact course.shows
  rw [of_fault scan]
  cases read : decode bs with
  | complete found =>
    rw [scan_of_decode read] at scan
    cases scan
  | incomplete =>
    obtain ⟨_, _, pending⟩ := scan_of_incomplete read
    rw [pending] at scan
    cases scan
  | malformed why' =>
    rw [readAll_of_malformed read]
    exact ⟨rfl, rfl, nofun, fun e => shows (Option.some.inj e)⟩

/-- one round, if what later rounds make of the rest is known -/
theorem reads_of_frame {length : Nat} (scan : (holding bs).scan = .frame length)
    (later : (Fed.of (bs.drop length)).Reads (readAll (bs.drop length))) :
    (Fed.of bs).Reads (readAll bs) := by
  cases framed scan with
  | inl h =>
    obtain ⟨why, unread⟩ := h
    have bad : decode bs = .malformed why := by
      have more := sequential_decode.malformed unread (bs.drop length)
      rw [List.take_append_drop] at more
      exact more
    have shows : why ≠ .framing := by
      rintro rfl
      exact Shows.decodeWithin _ _ unread
    rw [of_frame scan, round, unread, readAll_of_malformed bad]
    exact ⟨rfl, rfl, (fun none => by cases none), fun e => shows (Option.some.inj e)⟩
  | inr h =>
    obtain ⟨reply, read⟩ := h
    rw [of_frame scan, round_of_read read, readAll_of_complete (decode_of_read read)]
    exact ⟨congrArg (reply :: ·) later.replies, later.buffer, later.sound, later.shows⟩

end

theorem of_reads (bs : Bytes) : (Fed.of bs).Reads (readAll bs) := by
  induction size : bs.length using Nat.strongRecOn generalizing bs with
  | ind n ih =>
    cases scan : (holding bs).scan with
    | pending offset owed => exact reads_of_pending scan
    | fault why offset owed => exact reads_of_fault scan
    | frame length =>
      -- a frame takes a byte at least
      obtain ⟨some, fits, _⟩ := scan_frame scan
      have shorter : (bs.drop length).length < n := by
        rw [List.length_drop]
        omega
      exact reads_of_frame scan (ih _ shorter _ rfl)

end Fed

namespace Parser
open Reply

/-! ## chunks and rounds -/

theorem feedOn_empty (chunks : List Bytes) : empty.feedOn chunks = Fed.of chunks.flatten := by
  cases chunks with
  | nil => rfl
  | cons chunk chunks =>
    rw [List.flatten_cons]
    exact foldl_feed (resumes_holding []) chunk chunks

theorem reads_of_feedOn (chunks : List Bytes) :
    (empty.feedOn chunks).Reads (readAll chunks.flatten) := by
  rw [feedOn_empty]
  exact Fed.of_reads _

/-- a fault of the first chunks is one of all -/
theorem fault_of_prefix {met chunks : List Bytes} (front : met <+: chunks)
    (h : (empty.feedOn met).fault ≠ none) : (readAll chunks.flatten).fault ≠ none := by
  obtain ⟨rest, rfl⟩ := front
  have bad : (readAll met.flatten).fault ≠ none := fun none => h ((reads_of_feedOn met).sound none)
  obtain ⟨why, fault⟩ := Option.ne_none_iff_exists'.mp bad
  rw [List.flatten_append, readAll_append fault]
  nofun

theorem foldl_replies (chunks : List Bytes) (replies : List Reply) (fed : Fed) :
    chunks.foldl Fed.feed ⟨fed.parser, replies ++ fed.replies, fed.fault⟩ =
      ⟨(chunks.foldl Fed.feed fed).parser, replies ++ (chunks.foldl Fed.feed fed).replies,
        (chunks.foldl Fed.feed fed).fault⟩ := by
  induction chunks generalizing fed with
  | nil => rfl
  | cons chunk chunks ih =>
    have next : Fed.feed ⟨fed.parser, replies ++ fed.replies, fed.fault⟩ chunk =
        ⟨(fed.feed chunk).parser, replies ++ (fed.feed chunk).replies, (fed.feed chunk).fault⟩ := by
      simp only [Fed.feed, List.append_assoc]
    rw [List.foldl_cons, List.foldl_cons, next, ih]

/-- feeding up to the first fault is feeding the chunks met so far -/
theorem feedChunks_eq_feedOn (p : Parser) (chunks : List Bytes) :
    ∃ met rest, chunks = met ++ rest ∧ p.feedChunks chunks = p.feedOn met ∧
      (rest = [] ∨ (p.feedOn met).fault ≠ none) := by
  induction chunks generalizing p with
  | nil => exact ⟨[], [], rfl, rfl, .inl rfl⟩
  | cons chunk chunks ih =>
    cases fault : (p.feed chunk).fault with
    | some why =>
      have stopped : p.feedChunks (chunk :: chunks) = p.feed chunk := by
        rw [feedChunks, fault]
        dsimp only
        rw [← fault]
      refine ⟨[chunk], chunks, rfl, stopped, .inr ?_⟩
      show (p.feed chunk).fault ≠ none
      rw [fault]
      nofun
    | none =>
      obtain ⟨met, rest, rfl, same, ends⟩ := ih (p.feed chunk).parser
      have all : p.feedOn (chunk :: met) =
          ⟨((p.feed chunk).parser.feedOn met).parser,
            (p.feed chunk).replies ++ ((p.feed chunk).parser.feedOn met).replies,
            ((p.feed chunk).parser.feedOn met).fault⟩ := by
        have begun : p.feed chunk =
            ⟨(p.feed chunk).parser, (p.feed chunk).replies ++ [], none⟩ := by
          rw [List.append_nil, ← fault]
        calc
          p.feedOn (chunk :: met) = met.foldl Fed.feed (p.feed chunk) := rfl
          _ = met.foldl Fed.feed ⟨(p.feed chunk).parser, (p.feed chunk).replies ++ [], none⟩ :=
            congrArg (fun fed => met.foldl Fed.feed fed) begun
          _ = _ := foldl_replies met (p.feed chunk).replies ⟨(p.feed chunk).parser, [], none⟩
      refine ⟨chunk :: met, rest, rfl, ?_, ?_⟩
      · rw [feedChunks, fault, all, same]
      · rw [all]
        exact ends

/-- up to the first fault or past it, the replies are the same -/
theorem feedChunks_replies (chunks : List Bytes) :
    (empty.feedChunks chunks).replies = (readAll chunks.flatten).replies := by
  obtain ⟨met, rest, rfl, same, ends⟩ := feedChunks_eq_feedOn empty chunks
  have reads := reads_of_feedOn met
  rw [same, reads.replies]
  obtain rfl | fault := ends
  · rw [List.append_nil]
  · have bad : (readAll met.flatten).fault ≠ none := fun none => fault (reads.sound none)
    obtain ⟨why, fault⟩ := Option.ne_none_iff_exists'.mp bad
    rw [List.flatten_append, readAll_append fault]

/-- the parsers whose scans the rounds of a feed make -/
inductive Rounds (p : Parser) : Parser → Prop
  | first : Rounds p p
  | next {q : Parser} {n : Nat} {reply : Reply} (before : Rounds p q) (frame : q.scan = .frame n)
    (read : decode (q.buffer.take n) = .complete (reply, [])) :
    Rounds p (holding (q.buffer.drop n))

theorem Rounds.scan {p q : Parser} {chunk : Bytes} (h : Rounds (p.arrived chunk) q)
    (resumes : p.Resumes) : q.scan = (holding q.buffer).scan := by
  cases h with
  | first => exact resumes chunk
  | next => rfl

/-- a parser delivers the replies that the decoder reads, however its bytes are cut; while the
decoder only waits for bytes no feed fails, and every frame that a scan comes to is one reply or
none -/
theorem feedOn_reads (chunks : List Bytes) :
    let read := readAll chunks.flatten
    (empty.feedOn chunks).replies = read.replies ∧
    (empty.feedChunks chunks).replies = read.replies ∧
    (read.fault = none →
      (∀ met, met <+: chunks → (empty.feedOn met).fault = none) ∧
        (empty.feedOn chunks).parser.buffer = read.rest) ∧
    (∀ met, met <+: chunks → (empty.feedOn met).fault ≠ none → read.fault ≠ none) ∧
    ∀ p : Parser, p.Reachable → ∀ chunk : Bytes,
      (∀ q, Rounds (p.arrived chunk) q → ∀ n, q.scan = .frame n →
        n ≤ q.buffer.length ∧
          ((∃ why, decode (q.buffer.take n) = .malformed why) ∨
            ∃ reply, decode (q.buffer.take n) = .complete (reply, []))) ∧
      ∀ why, (p.feed chunk).fault = some why →
        why.message ≠ "Reply does not match its framing" := by
  intro read
  have reads : (empty.feedOn chunks).Reads read := reads_of_feedOn chunks
  refine ⟨reads.replies, feedChunks_replies chunks, fun waits => ⟨?_, reads.buffer⟩,
    fun met front fault => fault_of_prefix front fault, fun p reachable chunk => ⟨?_, ?_⟩⟩
  · intro met front
    exact Decidable.not_not.mp fun fault => fault_of_prefix front fault waits
  · intro q round n frame
    rw [round.scan reachable.resumes] at frame
    obtain ⟨_, fits, _⟩ := scan_frame frame
    exact ⟨fits, framed frame⟩
  · intro why fault
    apply Malformed.message_ne
    rintro rfl
    rw [Fed.feed_of_resumes reachable.resumes] at fault
    exact (Fed.of_reads _).shows fault

/-- an array cut in the end of its line, before a reply that waits; a number that is none; and a
frame that no reply fits, inside an array that was fed before -/
theorem feedOn_reads_of_cuts :
    let cut : List Bytes := [[0x2A, 0x31, 0x0D], [0x0A, 0x2A, 0x30, 0x0D, 0x0A, 0x24]]
    let bad : List Bytes := [[0x3A, 0x37, 0x0D, 0x0A], [0x3A, 0x0D], [0x0A]]
    let p := (empty.feed [0x2A, 0x31, 0x0D, 0x0A, 0x24]).parser
    let chunk : Bytes := [0x30, 0x0D, 0x0A, 0x2B, 0x2B]
    ((readAll cut.flatten = ⟨[.array [.array []]], [0x24], none⟩ ∧
        (empty.feedOn cut).replies = [.array [.array []]] ∧
        (empty.feedOn cut).parser.buffer = [0x24]) ∧
      ((empty.feedOn bad).fault ≠ none ∧ (readAll bad.flatten).fault ≠ none)) ∧
      p.Reachable ∧ (p.arrived chunk).scan = .frame 10 ∧
        (∃ why, decode ((p.arrived chunk).buffer.take 10) = .malformed why) ∧
        ∀ why, (p.feed chunk).fault = some why →
          why.message ≠ "Reply does not match its framing" := by
  intro cut bad p chunk
  have waits : readAll cut.flatten = ⟨[.array [.array []]], [0x24], none⟩ := by
    have first : decode cut.flatten = .complete (.array [.array []], [0x24]) := by decide +kernel
    have second : decode [0x24] = .incomplete := by decide +kernel
    rw [readAll_of_complete first, readAll_of_incomplete second]
  have cuts := feedOn_reads cut
  have fails : (empty.feedOn bad).fault ≠ none := by decide +kernel
  have reachable : p.Reachable := Reachable.fresh.feed _
  have frame : (p.arrived chunk).scan = .frame 10 := by decide +kernel
  obtain ⟨frames, faults⟩ := (feedOn_reads []).2.2.2.2 p reachable chunk
  have unread := (frames _ .first 10 frame).2.resolve_right (by
    rintro ⟨reply, read⟩
    have bad : decode ((p.arrived chunk).buffer.take 10) = .malformed .unterminated := by
      decide +kernel
    rw [bad] at read
    cases read)
  refine ⟨⟨⟨waits, ?_, ?_⟩, fails, ?_⟩, reachable, frame, unread, faults⟩
  · rw [cuts.1, waits]
  · rw [(cuts.2.2.1 (by rw [waits])).2, waits]
  · exact (feedOn_reads bad).2.2.2.1 bad (List.prefix_refl bad) fails

end Parser
end RespLink
