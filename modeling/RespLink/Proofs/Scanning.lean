import RespLink.Proofs.Readers
import RespLink.Reply.Parser

/-!
# Scanning in pieces

A parser that is fed in pieces ends where one that is fed at once does: same replies, same fault,
same buffer, same place of the scan.

* `Element.ofLine`   the element that a header line begins;
* `Course`           the course of a scan, element by element: each one is settled by the bytes that
                     it uses, so bytes that come later change nothing before them;
* `course_run`, `Course.run_eq`   the scan takes that course and no other;
* `Course.halt`      a scan that stopped goes on where it stopped;
* `Course.fault`     a fault is one whatever bytes follow;
* `Parser.Resumes`   the place where a parser stands is one that the scan of its buffer comes to;
* `Fed.of_append`    feeding again is feeding the bytes that were left, with the new ones;
* `Parser.feedOn_eq_feed`   chunks, one after another, are their concatenation.
-/

namespace RespLink

/-! ## elements -/

namespace Element

/-- the bytes after the type byte -/
def more : Element → Nat
  | opens _ n | whole n => n

/-- the element that a header line begins -/
def ofLine (t : UInt8) (line after : Bytes) : Verdict Element :=
  if t = 0x3A then (lineNumber line).bind fun _ => .complete (whole (line.length + 2))
  else if t = 0x24 then (lineNumber line).bind fun n => ofBulk n (line.length + 2) after
  else if t = 0x2A then (lineNumber line).bind fun n => ofArray n (line.length + 2)
  else .complete (whole (line.length + 2))

theorem ofBulk_complete {n : Int64} {header : Nat} {after : Bytes} {e : Element}
    (h : ofBulk n header after = .complete e) :
    ∃ used rest, after = used ++ rest ∧ e = whole (header + used.length) ∧
      ∀ more, ofBulk n header (used ++ more) = .complete e := by
  unfold ofBulk at h ⊢
  split at h
  · next null =>
    cases h
    exact ⟨[], after, rfl, rfl, fun more => if_pos null⟩
  · next some =>
    split at h
    · cases h
    · next sound =>
      generalize n.toInt.toNat = len at h ⊢
      dsimp only at h ⊢
      split at h
      · cases h
      · next long =>
        cases h
        have size : (after.take (len + 2)).length = len + 2 := by
          rw [List.length_take]
          omega
        refine ⟨after.take (len + 2), after.drop (len + 2), (List.take_append_drop _ _).symm, ?_,
          fun more => ?_⟩
        · rw [size, Nat.add_assoc]
        · rw [if_neg some, if_neg sound, if_neg (by rw [List.length_append, size]; omega)]

theorem ofLine_complete {t : UInt8} {line after : Bytes} {e : Element}
    (h : ofLine t line after = .complete e) :
    ∃ used rest, after = used ++ rest ∧ e.more = line.length + 2 + used.length ∧
      ∀ more, ofLine t line (used ++ more) = .complete e := by
  unfold ofLine at h ⊢
  by_cases integer : t = 0x3A
  · simp only [if_pos integer] at h ⊢
    cases number : lineNumber line with
    | complete n =>
      rw [number] at h
      cases h
      exact ⟨[], after, rfl, rfl, fun more => rfl⟩
    | _ => rw [number] at h; cases h
  by_cases bulk : t = 0x24
  · simp only [if_neg integer, if_pos bulk] at h ⊢
    cases number : lineNumber line with
    | complete n =>
      rw [number] at h
      obtain ⟨used, rest, split, rfl, again⟩ := ofBulk_complete h
      exact ⟨used, rest, split, rfl, again⟩
    | _ => rw [number] at h; cases h
  by_cases array : t = 0x2A
  · simp only [if_neg integer, if_neg bulk, if_pos array] at h ⊢
    refine ⟨[], after, rfl, ?_, fun more => h⟩
    cases number : lineNumber line with
    | complete n =>
      rw [number] at h
      change ofArray n (line.length + 2) = .complete e at h
      unfold ofArray at h
      split at h
      · cases h
        rfl
      · split at h
        · cases h
        · cases h
          rfl
    | _ => rw [number] at h; cases h
  · simp only [if_neg integer, if_neg bulk, if_neg array] at h ⊢
    cases h
    exact ⟨[], after, rfl, rfl, fun more => rfl⟩

/-- what is wrong with a header line is wrong whatever follows it -/
theorem ofLine_malformed {t : UInt8} {line after : Bytes} {why : Malformed}
    (h : ofLine t line after = .malformed why) (other : Bytes) :
    ofLine t line other = .malformed why := by
  unfold ofLine at h ⊢
  split at h
  · next integer => rw [if_pos integer]; exact h
  · next integer =>
    rw [if_neg integer]
    split at h
    · next bulk =>
      rw [if_pos bulk]
      cases number : lineNumber line with
      | complete n =>
        rw [number] at h
        change ofBulk n _ after = _ at h
        show ofBulk n _ other = _
        unfold ofBulk at h ⊢
        split at h
        · cases h
        · next some =>
          rw [if_neg some]
          split at h
          · next negative => rw [if_pos negative]; exact h
          · -- a payload that is too short is awaited
            dsimp only at h
            split at h <;> cases h
      | incomplete | malformed => rw [number] at h; exact h
    · next bulk => rw [if_neg bulk]; exact h

section
variable {depth : Nat} {t : UInt8} {body : Bytes}

/-- a byte that begins an element may stand here -/
def Fits (depth : Nat) (t : UInt8) : Prop :=
  ¬ (t ≠ 0x2B ∧ t ≠ 0x2D ∧ t ≠ 0x3A ∧ t ≠ 0x24 ∧ t ≠ 0x2A) ∧ ¬ (t = 0x2A ∧ maxDepth ≤ depth)

theorem scan_of_fits (fits : Fits depth t) (body : Bytes) :
    scan depth t body = (frontLine body).bind fun found => ofLine t found.1 found.2 := by
  rw [scan, if_neg fits.1, if_neg fits.2]
  rfl

/-- a byte that may not stand here is a fault whatever follows -/
theorem scan_of_not_fits (odd : ¬ Fits depth t) :
    ∃ why, ∀ body, scan depth t body = .malformed why := by
  by_cases known : t ≠ 0x2B ∧ t ≠ 0x2D ∧ t ≠ 0x3A ∧ t ≠ 0x24 ∧ t ≠ 0x2A
  · exact ⟨.typeByte t, fun body => by rw [scan, if_pos known]⟩
  · have deep : t = 0x2A ∧ maxDepth ≤ depth :=
      Decidable.not_not.mp fun shallow => odd ⟨known, shallow⟩
    exact ⟨.tooDeep, fun body => by rw [scan, if_neg known, if_pos deep]⟩

/-- an element is settled by its own bytes -/
theorem scan_complete {e : Element} (h : scan depth t body = .complete e) :
    ∃ used rest, body = used ++ rest ∧ e.more = used.length ∧
      ∀ more, scan depth t (used ++ more) = .complete e := by
  by_cases fits : Fits depth t
  · rw [scan_of_fits fits] at h
    cases found : frontLine body with
    | complete lined =>
      obtain ⟨line, after⟩ := lined
      rw [found] at h
      obtain ⟨used, rest, rfl, size, again⟩ := ofLine_complete h
      obtain ⟨all, unbroken⟩ := frontLine_eq_complete_iff.mp found
      refine ⟨line ++ Bytes.crlf ++ used, rest, by simp only [all, List.append_assoc], ?_,
        fun more => ?_⟩
      · rw [size, List.length_append, List.length_append]
        rfl
      · rw [scan_of_fits fits, List.append_assoc, frontLine_of_unbroken unbroken]
        exact again more
    | _ => rw [found] at h; cases h
  · obtain ⟨why, all⟩ := scan_of_not_fits fits
    rw [all] at h
    cases h

/-- so is what is wrong with an element -/
theorem scan_malformed {why : Malformed} (h : scan depth t body = .malformed why) (more : Bytes) :
    scan depth t (body ++ more) = .malformed why := by
  by_cases fits : Fits depth t
  · rw [scan_of_fits fits] at h ⊢
    cases found : frontLine body with
    | complete lined =>
      rw [found] at h
      rw [sequential_frontLine.append found]
      exact ofLine_malformed h _
    | incomplete => rw [found] at h; cases h
    | malformed =>
      rw [found] at h
      rw [sequential_frontLine.malformed found]
      exact h
  · obtain ⟨why', all⟩ := scan_of_not_fits fits
    rw [all] at h ⊢
    exact h

end
end Element

/-! ## the course of a scan -/

/-- the scan of bytes, element by element, and how it ends -/
inductive Course : Bytes → Nat → List Nat → Scan → Prop
  | dry (offset owed) : Course [] offset owed (.pending offset owed)
  | waits {t body offset owed} (h : Element.scan owed.length t body = .incomplete) :
    Course (t :: body) offset owed (.pending offset owed)
  | faults {t body offset owed why} (h : Element.scan owed.length t body = .malformed why) :
    Course (t :: body) offset owed (.fault why offset owed)
  | opens {t used rest offset owed count scan}
    (h : ∀ more, Element.scan owed.length t (used ++ more) = .complete (.opens count used.length))
    (on : Course rest (offset + 1 + used.length) (count :: owed) scan) :
    Course (t :: (used ++ rest)) offset owed scan
  | closes {t used rest offset owed}
    (h : ∀ more, Element.scan owed.length t (used ++ more) = .complete (.whole used.length))
    (done : settle owed = []) :
    Course (t :: (used ++ rest)) offset owed (.frame (offset + 1 + used.length))
  | passes {t used rest offset owed n owed' scan}
    (h : ∀ more, Element.scan owed.length t (used ++ more) = .complete (.whole used.length))
    (left : settle owed = n :: owed')
    (on : Course rest (offset + 1 + used.length) (n :: owed') scan) :
    Course (t :: (used ++ rest)) offset owed scan

namespace Scan

theorem run_skip (bs : Bytes) (skip offset : Nat) (owed : List Nat) :
    run bs skip offset owed = run (bs.drop skip) 0 offset owed := by
  induction bs generalizing skip with
  | nil => cases skip <;> rfl
  | cons t body ih =>
    cases skip with
    | zero => rfl
    | succ skip => exact ih skip

/-- the place where a scan stopped before the end of the frame -/
def halt? : Scan → Option (Nat × List Nat)
  | frame _ => none
  | pending offset owed | fault _ offset owed => some (offset, owed)

end Scan

section
variable {bs : Bytes} {offset : Nat} {owed : List Nat} {scan : Scan}

theorem run_cons (t : UInt8) (body : Bytes) (offset : Nat) (owed : List Nat) :
    Scan.run (t :: body) 0 offset owed =
      match Element.scan owed.length t body with
      | .incomplete => .pending offset owed
      | .malformed why => .fault why offset owed
      | .complete (.opens count more) =>
        Scan.run (body.drop more) 0 (offset + 1 + more) (count :: owed)
      | .complete (.whole more) =>
        match settle owed with
        | [] => .frame (offset + 1 + more)
        | n :: rest => Scan.run (body.drop more) 0 (offset + 1 + more) (n :: rest) := by
  rw [Scan.run]
  cases Element.scan owed.length t body with
  | incomplete | malformed => rfl
  | complete e =>
    cases e with
    | opens => exact Scan.run_skip _ _ _ _
    | whole =>
      dsimp only
      cases settle owed with
      | nil => rfl
      | cons => exact Scan.run_skip _ _ _ _

theorem course_run (bs : Bytes) (offset : Nat) (owed : List Nat) :
    Course bs offset owed (Scan.run bs 0 offset owed) := by
  induction size : bs.length using Nat.strongRecOn generalizing bs offset owed with
  | ind n ih =>
    cases bs with
    | nil => exact .dry offset owed
    | cons t body =>
      rw [run_cons]
      cases element : Element.scan owed.length t body with
      | incomplete => exact .waits element
      | malformed why => exact .faults element
      | complete e =>
        obtain ⟨used, rest, rfl, length, again⟩ := Element.scan_complete element
        have shorter : rest.length < n := by
          rw [← size, List.length_cons, List.length_append]
          omega
        cases e with
        | opens count more =>
          change more = used.length at length
          subst length
          dsimp only
          rw [List.drop_left]
          exact .opens again (ih _ shorter _ _ _ rfl)
        | whole more =>
          change more = used.length at length
          subst length
          dsimp only
          split
          · next done => exact .closes again done
          · next n' owed' left =>
            rw [List.drop_left]
            exact .passes again left (ih _ shorter _ _ _ rfl)

theorem Course.run_eq (h : Course bs offset owed scan) : Scan.run bs 0 offset owed = scan := by
  induction h with
  | dry => rfl
  | waits h => rw [run_cons, h]
  | faults h => rw [run_cons, h]
  | opens h on ih =>
    rw [run_cons, h]
    dsimp only
    rw [List.drop_left]
    exact ih
  | closes h done =>
    rw [run_cons, h]
    dsimp only
    rw [done]
  | passes h left on ih =>
    rw [run_cons, h]
    dsimp only
    rw [left, List.drop_left]
    exact ih

/-- a frame is settled by its own bytes, one at least -/
theorem Course.frame {n : Nat} (h : Course bs offset owed (.frame n)) :
    ∃ used rest, bs = used ++ rest ∧ used ≠ [] ∧ n = offset + used.length ∧
      ∀ more, Course (used ++ more) offset owed (.frame n) := by
  generalize ends : Scan.frame n = scan at h
  induction h with
  | dry | waits | faults => cases ends
  | @opens t used rest offset owed count scan h on ih =>
    obtain ⟨used', rest', rfl, _, rfl, again⟩ := ih ends
    subst ends
    refine ⟨t :: (used ++ used'), rest', by simp, List.cons_ne_nil _ _, ?_, fun more => ?_⟩
    · rw [List.length_cons, List.length_append]
      omega
    · rw [List.cons_append, List.append_assoc]
      exact .opens h (again more)
  | @closes t used rest offset owed h done =>
    cases ends
    refine ⟨t :: used, rest, rfl, List.cons_ne_nil _ _, ?_, fun more => .closes h done⟩
    rw [List.length_cons]
    omega
  | @passes t used rest offset owed m owed' scan h left on ih =>
    obtain ⟨used', rest', rfl, _, rfl, again⟩ := ih ends
    subst ends
    refine ⟨t :: (used ++ used'), rest', by simp, List.cons_ne_nil _ _, ?_, fun more => ?_⟩
    · rw [List.length_cons, List.length_append]
      omega
    · rw [List.cons_append, List.append_assoc]
      exact .passes h left (again more)

/-- a scan that stopped goes on where it stopped, whatever bytes have come -/
theorem Course.halt {offset' : Nat} {owed' : List Nat} (h : Course bs offset owed scan)
    (stops : scan.halt? = some (offset', owed')) :
    ∃ done left, bs = done ++ left ∧ offset' = offset + done.length ∧
      ∀ more, Scan.run (done ++ more) 0 offset owed = Scan.run more 0 offset' owed' := by
  induction h with
  | dry =>
    cases stops
    exact ⟨[], [], rfl, rfl, fun more => rfl⟩
  | waits | faults =>
    cases stops
    exact ⟨[], _, rfl, rfl, fun more => rfl⟩
  | @opens t used rest offset owed count scan h on ih =>
    obtain ⟨done, left, rfl, rfl, again⟩ := ih stops
    refine ⟨t :: (used ++ done), left, by simp, ?_, fun more => ?_⟩
    · rw [List.length_cons, List.length_append]
      omega
    · rw [List.cons_append, List.append_assoc, ← again more]
      exact (Course.opens h (course_run _ _ _)).run_eq
  | closes => cases stops
  | @passes t used rest offset owed n owed'' scan h left' on ih =>
    obtain ⟨done, left, rfl, rfl, again⟩ := ih stops
    refine ⟨t :: (used ++ done), left, by simp, ?_, fun more => ?_⟩
    · rw [List.length_cons, List.length_append]
      omega
    · rw [List.cons_append, List.append_assoc, ← again more]
      exact (Course.passes h left' (course_run _ _ _)).run_eq

/-- a fault is a fault whatever follows -/
theorem Course.fault {why : Malformed} {offset' : Nat} {owed' : List Nat}
    (h : Course bs offset owed (.fault why offset' owed')) (more : Bytes) :
    Course (bs ++ more) offset owed (.fault why offset' owed') := by
  generalize ends : Scan.fault why offset' owed' = scan at h
  induction h with
  | dry | waits | closes => cases ends
  | faults h =>
    cases ends
    exact .faults (Element.scan_malformed h more)
  | opens h _ ih =>
    rw [List.cons_append, List.append_assoc]
    exact .opens h (ih ends)
  | passes h left _ ih =>
    rw [List.cons_append, List.append_assoc]
    exact .passes h left (ih ends)

end

namespace Parser

/-! ## parsers that resume -/

/-- a parser that has not scanned its buffer -/
def holding (bs : Bytes) : Parser := ⟨bs, 0, []⟩

/-- the parser when more bytes have arrived -/
def arrived (p : Parser) (chunk : Bytes) : Parser := ⟨p.buffer ++ chunk, p.offset, p.owed⟩

/-- the parser stands at a place that the scan of its buffer comes to -/
def Resumes (p : Parser) : Prop :=
  ∀ chunk, (p.arrived chunk).scan = (holding (p.buffer ++ chunk)).scan

theorem resumes_holding (bs : Bytes) : Resumes (holding bs) := fun _ => rfl

/-- where a scan stopped, it resumes -/
theorem resumes_of_halt {bs : Bytes} {offset : Nat} {owed : List Nat}
    (h : (holding bs).scan.halt? = some (offset, owed)) : Resumes ⟨bs, offset, owed⟩ := by
  obtain ⟨done, left, rfl, rfl, again⟩ := (course_run bs 0 []).halt h
  intro chunk
  show Scan.run ((done ++ left ++ chunk).drop (0 + done.length)) 0 (0 + done.length) owed
    = Scan.run (done ++ left ++ chunk) 0 0 []
  rw [List.append_assoc, again, Nat.zero_add, List.drop_left]

/-- a frame that is complete is complete whatever follows it -/
theorem scan_frame {bs : Bytes} {n : Nat} (h : (holding bs).scan = .frame n) :
    0 < n ∧ n ≤ bs.length ∧ (holding (bs.take n)).scan = .frame n ∧
      ∀ more, (holding (bs ++ more)).scan = .frame n := by
  have course : Course bs 0 [] (.frame n) := by
    rw [← h]
    exact course_run bs 0 []
  obtain ⟨used, rest, rfl, some, rfl, again⟩ := course.frame
  have whole := again []
  rw [List.append_nil] at whole
  refine ⟨?_, ?_, ?_, fun more => ?_⟩
  · have := List.length_pos_iff.mpr some
    omega
  · rw [List.length_append]
    omega
  · rw [Nat.zero_add, List.take_left]
    rw [Nat.zero_add] at whole
    exact whole.run_eq
  · rw [List.append_assoc]
    exact (again (rest ++ more)).run_eq

end Parser

/-! ## feeding from scratch -/

/-- what a fresh parser makes of bytes -/
def Fed.of (bs : Bytes) : Fed := Parser.empty.feed bs

namespace Fed
open RespLink.Parser
variable {bs : Bytes}

/-- a round that comes to a frame of length `n`, and then what `later` rounds make of the rest -/
def round (bs : Bytes) (n : Nat) (later : Fed) : Fed :=
  match Reply.decode (bs.take n) with
  | .complete (reply, []) => ⟨later.parser, reply :: later.replies, later.fault⟩
  | .malformed why => ⟨holding bs, [], some why⟩
  | _ => ⟨holding bs, [], some .framing⟩

theorem round_of_read {n : Nat} {reply : Reply}
    (h : Reply.decode (bs.take n) = .complete (reply, [])) (later : Fed) :
    round bs n later = ⟨later.parser, reply :: later.replies, later.fault⟩ := by
  rw [round, h]

/-- a frame that is not one reply stays in front -/
theorem round_of_unread {n : Nat} (h : ∀ reply, Reply.decode (bs.take n) ≠ .complete (reply, [])) :
    ∃ why, ∀ later, round bs n later = ⟨holding bs, [], some why⟩ := by
  unfold round
  split
  · next reply read => exact absurd read (h reply)
  · next why _ => exact ⟨why, fun _ => rfl⟩
  · exact ⟨.framing, fun _ => rfl⟩

theorem drain_frame {p : Parser} {n : Nat} (h : p.scan = .frame n) (rounds : Nat) :
    drain (rounds + 1) p = round p.buffer n (drain rounds (holding (p.buffer.drop n))) := by
  rw [drain, h]
  rfl

/-- where a round starts matters only to its scan -/
theorem drain_congr {p q : Parser} (buffer : p.buffer = q.buffer) (scan : p.scan = q.scan)
    (rounds : Nat) : drain (rounds + 1) p = drain (rounds + 1) q := by
  rw [drain, drain, scan, buffer]

theorem of_eq_drain (bs : Bytes) : Fed.of bs = drain (bs.length + 1) (holding bs) := by
  show drain (0 + bs.length + 1) (holding bs) = _
  rw [Nat.zero_add]

/-- more rounds than bytes change nothing -/
theorem drain_eq_of {rounds : Nat} (enough : bs.length < rounds) :
    drain rounds (holding bs) = Fed.of bs := by
  rw [of_eq_drain]
  induction size : bs.length using Nat.strongRecOn generalizing bs rounds with
  | ind n ih =>
    obtain ⟨rounds, rfl⟩ : ∃ k, rounds = k + 1 := ⟨rounds - 1, by omega⟩
    cases scan : (holding bs).scan with
    | frame length =>
      obtain ⟨some, fits, _⟩ := scan_frame scan
      have shorter : (bs.drop length).length < n := by
        rw [List.length_drop]
        omega
      have rest {k : Nat} (more : n ≤ k) :
          drain k (holding (bs.drop length)) = drain ((bs.drop length).length + 1)
            (holding (bs.drop length)) := ih _ shorter (by omega) rfl
      rw [drain_frame scan, drain_frame scan]
      show round bs length (drain rounds (holding (bs.drop length))) =
        round bs length (drain n (holding (bs.drop length)))
      rw [rest (k := rounds) (by omega), rest (k := n) (Nat.le_refl n)]
    | pending | fault => rw [drain, drain, scan]

section
variable {offset : Nat} {owed : List Nat}

theorem of_pending (h : (holding bs).scan = .pending offset owed) :
    Fed.of bs = ⟨⟨bs, offset, owed⟩, [], none⟩ := by
  rw [of_eq_drain, drain, h]
  rfl

theorem of_fault {why : Malformed} (h : (holding bs).scan = .fault why offset owed) :
    Fed.of bs = ⟨⟨bs, offset, owed⟩, [], some why⟩ := by
  rw [of_eq_drain, drain, h]
  rfl

end

theorem of_frame {n : Nat} (h : (holding bs).scan = .frame n) :
    Fed.of bs = round bs n (Fed.of (bs.drop n)) := by
  obtain ⟨some, fits, _⟩ := scan_frame h
  rw [of_eq_drain, drain_frame h]
  have rest : drain bs.length (holding (bs.drop n)) = Fed.of (bs.drop n) := by
    apply drain_eq_of
    rw [List.length_drop]
    omega
  show round bs n (drain bs.length (holding (bs.drop n))) = _
  rw [rest]

/-! ## feeding again -/

/-- feeds more bytes, after a fault too; the replies add up -/
def feed (fed : Fed) (chunk : Bytes) : Fed :=
  let again := fed.parser.feed chunk
  ⟨again.parser, fed.replies ++ again.replies, again.fault⟩

/-- a parser that resumes makes of its bytes what a fresh one does -/
theorem feed_of_resumes {p : Parser} (h : p.Resumes) (chunk : Bytes) :
    p.feed chunk = Fed.of (p.buffer ++ chunk) := by
  rw [of_eq_drain, List.length_append]
  exact drain_congr (p := p.arrived chunk) (q := holding (p.buffer ++ chunk)) rfl (h chunk) _

theorem resumes_of (bs : Bytes) : (Fed.of bs).parser.Resumes := by
  induction size : bs.length using Nat.strongRecOn generalizing bs with
  | ind n ih =>
    cases scan : (holding bs).scan with
    | frame length =>
      obtain ⟨some, fits, _⟩ := scan_frame scan
      rw [of_frame scan, round]
      split
      · apply ih _ ?_ _ rfl
        rw [List.length_drop]
        omega
      · exact resumes_holding bs
      · exact resumes_holding bs
    | pending offset owed =>
      rw [of_pending scan]
      exact resumes_of_halt (by rw [scan]; rfl)
    | fault why offset owed =>
      rw [of_fault scan]
      exact resumes_of_halt (by rw [scan]; rfl)

/-- bytes that come later are fed to what is left of those before -/
theorem of_append (bs more : Bytes) : Fed.of (bs ++ more) = (Fed.of bs).feed more := by
  induction size : bs.length using Nat.strongRecOn generalizing bs with
  | ind n ih =>
    have onward {fed : Fed} (resumes : fed.parser.Resumes) (left : fed.parser.buffer = bs)
        (nothing : fed.replies = []) : Fed.of (bs ++ more) = fed.feed more := by
      rw [feed, feed_of_resumes resumes, left, nothing]
      rfl
    cases scan : (holding bs).scan with
    | pending offset owed =>
      apply onward (resumes_of bs) <;> rw [of_pending scan]
    | fault why offset owed =>
      apply onward (resumes_of bs) <;> rw [of_fault scan]
    | frame length =>
      obtain ⟨some, fits, _, still⟩ := scan_frame scan
      rw [of_frame scan]
      by_cases read : ∃ reply, Reply.decode (bs.take length) = .complete (reply, [])
      · obtain ⟨reply, read⟩ := read
        have later : Fed.of ((bs ++ more).drop length) = (Fed.of (bs.drop length)).feed more := by
          rw [List.drop_append_of_le_length fits]
          apply ih _ ?_ _ rfl
          rw [List.length_drop]
          omega
        have front : Reply.decode ((bs ++ more).take length) = .complete (reply, []) := by
          rw [List.take_append_of_le_length fits, read]
        rw [of_frame (still more), round_of_read front, round_of_read read, later]
        rfl
      · obtain ⟨why, stuck⟩ := round_of_unread (not_exists.mp read)
        rw [stuck]
        exact onward (resumes_holding bs) rfl rfl

/-- bytes behind a fault add no reply and change no fault -/
theorem of_append_of_fault {why : Malformed} (h : (Fed.of bs).fault = some why) (more : Bytes) :
    (Fed.of (bs ++ more)).replies = (Fed.of bs).replies ∧
      (Fed.of (bs ++ more)).fault = some why := by
  induction size : bs.length using Nat.strongRecOn generalizing bs with
  | ind n ih =>
    cases scan : (holding bs).scan with
    | pending offset owed =>
      rw [of_pending scan] at h
      cases h
    | fault why' offset owed =>
      have course : Course bs 0 [] (.fault why' offset owed) := by
        rw [← scan]
        exact course_run bs 0 []
      rw [of_fault scan] at h ⊢
      rw [of_fault (course.fault more).run_eq]
      exact ⟨rfl, h⟩
    | frame length =>
      obtain ⟨positive, fits, _, still⟩ := scan_frame scan
      have front : (bs ++ more).take length = bs.take length := List.take_append_of_le_length fits
      have later (h : (Fed.of (bs.drop length)).fault = some why) :=
        ih (bs.drop length).length (by rw [List.length_drop]; omega) h rfl
      rw [of_frame scan, round] at h ⊢
      rw [of_frame (still more), round, front, List.drop_append_of_le_length fits]
      -- the frame is read alone, and what is read says how to go on
      cases read : Reply.decode (bs.take length) with
      | complete found =>
        obtain ⟨reply, rest⟩ := found
        rw [read] at h
        cases rest with
        | nil => exact ⟨congrArg (reply :: ·) (later h).1, (later h).2⟩
        | cons => exact ⟨rfl, h⟩
      | incomplete | malformed => rw [read] at h; exact ⟨rfl, h⟩

end Fed

namespace Parser

/-! ## chunks -/

/-- the parsers that feeding and resetting lead to -/
inductive Reachable : Parser → Prop
  | fresh : Reachable empty
  | feed {p : Parser} (h : Reachable p) (chunk : Bytes) : Reachable (p.feed chunk).parser
  | reset {p : Parser} (h : Reachable p) : Reachable p.reset

theorem Reachable.resumes {p : Parser} (h : p.Reachable) : p.Resumes := by
  induction h with
  | fresh => exact resumes_holding []
  | feed h chunk ih =>
    rw [Fed.feed_of_resumes ih]
    exact Fed.resumes_of _
  | reset => exact resumes_holding []

/-- feeds the chunks one after another, past any fault; the fault is that of the last one -/
def feedOn (p : Parser) (chunks : List Bytes) : Fed :=
  chunks.foldl Fed.feed ⟨p, [], none⟩

theorem feed_feed {p : Parser} (h : p.Resumes) (chunk more : Bytes) :
    (p.feed chunk).feed more = p.feed (chunk ++ more) := by
  rw [Fed.feed_of_resumes h, Fed.feed_of_resumes h, ← List.append_assoc,
    Fed.of_append (p.buffer ++ chunk) more]

theorem foldl_feed {p : Parser} (h : p.Resumes) (chunk : Bytes) (chunks : List Bytes) :
    chunks.foldl Fed.feed (p.feed chunk) = p.feed (chunk ++ chunks.flatten) := by
  induction chunks generalizing chunk with
  | nil => rw [List.flatten_nil, List.append_nil, List.foldl_nil]
  | cons next chunks ih =>
    rw [List.foldl_cons, feed_feed h, ih, List.flatten_cons, List.append_assoc]

/-- any way of cutting the bytes of a feed into chunks comes to the same -/
theorem feedOn_eq_feed {p : Parser} (h : p.Reachable) {chunks : List Bytes} (some : chunks ≠ []) :
    p.feedOn chunks = p.feed chunks.flatten := by
  cases chunks with
  | nil => exact absurd rfl some
  | cons chunk chunks =>
    have first : Fed.feed ⟨p, [], none⟩ chunk = p.feed chunk := rfl
    rw [feedOn, List.foldl_cons, first, List.flatten_cons]
    exact foldl_feed h.resumes chunk chunks

/-- an array cut inside both its lines and its payload, a fault, and a byte after the fault -/
theorem feedOn_eq_feed_of_cuts :
    let p := (empty.feed [0x2A, 0x32, 0x0D, 0x0A, 0x24, 0x31, 0x0D]).parser
    let chunks : List Bytes := [[0x0A, 0x0A, 0x0D], [], [0x0A, 0x3A, 0x37, 0x0D], [0x0A, 0x40], [0x2B]]
    p.Reachable ∧ chunks ≠ [] ∧ p.feedOn chunks = p.feed chunks.flatten ∧
      p.feedOn chunks = ⟨holding [0x40, 0x2B], [.array [.bulk [0x0A], .integer 7]],
        some (.typeByte 0x40)⟩ := by
  intro p chunks
  have reachable : p.Reachable := Reachable.fresh.feed _
  have some : chunks ≠ [] := List.cons_ne_nil _ _
  exact ⟨reachable, some, feedOn_eq_feed reachable some, by decide +kernel⟩

end Parser
end RespLink
