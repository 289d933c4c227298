import RespLink.Proofs.Scanning

/-!
# Scanning agrees with decoding

The scan of a frame knows nothing of replies: it counts elements on a stack.  It comes to the end
of a frame where the decoder, which follows the nesting, comes to the end of a reply.

* `Meets`    one element and the reply of that one element end at the same byte;
* `Keeps`    the scan keeps up with a reader: where the reader has used up its bytes, the scan goes
             on from there; where the reader waits, so does the scan;
* `keeps_decodeItems`, `keeps_decodeWithin`   the items of an array, and one level of nesting after
             another;
* `Parser.framed`   a frame is one reply, or no reply at all.
-/

namespace RespLink

/-! ## one element -/

/-- the reading of a reply and the scan of its first element, behind the type byte -/
inductive Meets (body : Bytes) : Verdict (Reply × Bytes) → Verdict Element → Prop
  | complete (reply : Reply) (used rest : Bytes) (all : body = used ++ rest) :
    Meets body (.complete (reply, rest)) (.complete (.whole used.length))
  | incomplete : Meets body .incomplete .incomplete
  | malformed (why : Malformed) (found : Verdict Element) : Meets body (.malformed why) found

section
variable {body line after : Bytes}

theorem length_line (line : Bytes) : (line ++ Bytes.crlf).length = line.length + 2 :=
  List.length_append

theorem meets_decodeBulk (all : body = line ++ Bytes.crlf ++ after) (n : Int64) :
    Meets body (Reply.decodeBulk n after) (Element.ofBulk n (line.length + 2) after) := by
  unfold Reply.decodeBulk Element.ofBulk
  split
  · rw [← length_line]
    exact .complete .null _ _ all
  · split
    · exact .malformed _ _
    · generalize n.toInt.toNat = len
      dsimp only
      split
      · exact .incomplete
      · next long =>
        split
        · have size : (line ++ Bytes.crlf ++ after.take (len + 2)).length
              = line.length + 2 + len + 2 := by
            rw [List.length_append, length_line, List.length_take]
            omega
          rw [← size]
          apply Meets.complete
          rw [List.append_assoc, List.take_append_drop]
          exact all
        · exact .malformed _ _

theorem meets_bind_line {read : Bytes × Bytes → Verdict (Reply × Bytes)}
    {find : Bytes × Bytes → Verdict Element}
    (each : ∀ line after, body = line ++ Bytes.crlf ++ after →
      Meets body (read (line, after)) (find (line, after))) :
    Meets body ((frontLine body).bind read) ((frontLine body).bind find) := by
  cases found : frontLine body with
  | complete lined => exact each lined.1 lined.2 (frontLine_eq_complete_iff.mp found).1
  | incomplete => exact .incomplete
  | malformed why => exact .malformed why _

theorem meets_bind_number {read : Int64 → Verdict (Reply × Bytes)} {find : Int64 → Verdict Element}
    (each : ∀ n, Meets body (read n) (find n)) :
    Meets body ((lineNumber line).bind read) ((lineNumber line).bind find) := by
  cases lineNumber line with
  | complete n => exact each n
  | incomplete => exact .incomplete
  | malformed why => exact .malformed why _

theorem frontNumber_bind (next : Int64 × Bytes → Verdict (Reply × Bytes)) :
    (frontNumber body).bind next =
      (frontLine body).bind fun found => (lineNumber found.1).bind fun n => next (n, found.2) := by
  unfold frontNumber
  cases frontLine body with
  | complete found =>
    obtain ⟨line, after⟩ := found
    show ((lineNumber line).bind fun n => .complete (n, after)).bind next = _
    show _ = (lineNumber line).bind fun n => next (n, after)
    cases lineNumber line <;> rfl
  | incomplete | malformed => rfl

/-- a line is an element -/
theorem meets_line (all : body = line ++ Bytes.crlf ++ after) (reply : Reply) :
    Meets body (.complete (reply, after)) (.complete (.whole (line.length + 2))) := by
  rw [← length_line]
  exact .complete reply _ _ all

theorem fits_of_ne {depth : Nat} {t : UInt8} (plain : t ≠ 0x2A)
    (known : t = 0x2B ∨ t = 0x2D ∨ t = 0x3A ∨ t = 0x24) : Element.Fits depth t := by
  constructor
  · rintro ⟨h1, h2, h3, h4, _⟩
    obtain h | h | h | h := known
    · exact h1 h
    · exact h2 h
    · exact h3 h
    · exact h4 h
  · rintro ⟨h, _⟩
    exact plain h

theorem fits_array {depth : Nat} (shallow : depth < maxDepth) : Element.Fits depth 0x2A :=
  ⟨fun ⟨_, _, _, _, other⟩ => other rfl, fun ⟨_, deep⟩ => Nat.not_le.mpr shallow deep⟩

/-- what is no array has one element -/
theorem meets_decodeWith {t : UInt8} (plain : t ≠ 0x2A) (depth : Nat)
    (readArray : Bytes → Verdict (Reply × Bytes)) (body : Bytes) :
    Meets body (Reply.decodeWith readArray (t :: body)) (Element.scan depth t body) := by
  by_cases known : t = 0x2B ∨ t = 0x2D ∨ t = 0x3A ∨ t = 0x24
  · rw [Element.scan_of_fits (fits_of_ne plain known)]
    obtain rfl | rfl | rfl | rfl := known
    · exact meets_bind_line fun line after all => meets_line all _
    · exact meets_bind_line fun line after all => meets_line all _
    · show Meets body ((frontNumber body).bind _) _
      rw [frontNumber_bind]
      exact meets_bind_line fun line after all => meets_bind_number fun n => meets_line all _
    · show Meets body ((frontNumber body).bind _) _
      rw [frontNumber_bind]
      exact meets_bind_line fun line after all => meets_bind_number fun n => meets_decodeBulk all n
  · simp only [not_or] at known
    obtain ⟨h1, h2, h3, h4⟩ := known
    have odd : Reply.decodeWith readArray (t :: body) = .malformed (.typeByte t) := by
      rw [Reply.decodeWith, if_neg h1, if_neg h2, if_neg h3, if_neg h4, if_neg plain]
    rw [odd]
    exact .malformed _ _

end

/-! ## readers that the scan keeps up with -/

/-- the scan of `total` bytes goes on where an element has ended -/
def ended (total : Nat) (owed : List Nat) (rest : Bytes) : Scan :=
  match settle owed with
  | [] => .frame (total - rest.length)
  | n :: owed' => Scan.run rest 0 (total - rest.length) (n :: owed')

/-- the verdict of a reader on the last `most` bytes, and the scan of the same bytes -/
inductive Keeps {α : Type} (goes : Bytes → Scan) (most : Nat) :
    Verdict (α × Bytes) → Scan → Prop
  | complete (a : α) (rest : Bytes) (fewer : rest.length ≤ most) :
    Keeps goes most (.complete (a, rest)) (goes rest)
  | incomplete (offset : Nat) (owed : List Nat) : Keeps goes most .incomplete (.pending offset owed)
  | malformed (why : Malformed) (scan : Scan) : Keeps goes most (.malformed why) scan

namespace Keeps
variable {α β : Type} {goes goes' : Bytes → Scan} {most : Nat} {v : Verdict (α × Bytes)}
  {scan : Scan}

theorem bind (h : Keeps goes most v scan) {next : α × Bytes → Verdict (β × Bytes)}
    (on : ∀ a rest, rest.length ≤ most → Keeps goes' most (next (a, rest)) (goes rest)) :
    Keeps goes' most (v.bind next) scan := by
  cases h with
  | complete a rest fewer => exact on a rest fewer
  | incomplete offset owed => exact .incomplete offset owed
  | malformed why scan => exact .malformed why scan

theorem mono {most' : Nat} (h : Keeps goes most v scan) (more : most ≤ most') :
    Keeps goes most' v scan := by
  cases h with
  | complete a rest fewer => exact .complete a rest (Nat.le_trans fewer more)
  | incomplete offset owed => exact .incomplete offset owed
  | malformed why scan => exact .malformed why scan

end Keeps

/-- an element that is all of a reply ends where the reply does -/
theorem Meets.keeps {total : Nat} {owed : List Nat} {t : UInt8} {body : Bytes}
    {v : Verdict (Reply × Bytes)} (h : Meets body v (Element.scan owed.length t body))
    (fits : body.length + 1 ≤ total) :
    Keeps (ended total owed) (body.length + 1) v
      (Scan.run (t :: body) 0 (total - (body.length + 1)) owed) := by
  rw [run_cons]
  generalize Element.scan owed.length t body = found at h
  cases h with
  | complete reply used rest all =>
    have size : body.length = used.length + rest.length := by rw [all, List.length_append]
    have here : total - (body.length + 1) + 1 + used.length = total - rest.length := by omega
    have behind : body.drop used.length = rest := by rw [all, List.drop_left]
    dsimp only
    rw [here, behind]
    show Keeps _ _ _ (ended total owed rest)
    apply Keeps.complete
    omega
  | incomplete => exact .incomplete _ _
  | malformed why found => exact .malformed why _

/-- the scan of the last bytes, inside `depth` open arrays, keeps up with the reader -/
def Follows (read : Bytes → Verdict (Reply × Bytes)) (depth total : Nat) : Prop :=
  ∀ (bs : Bytes) (owed : List Nat), owed.length = depth → bs.length ≤ total →
    Keeps (ended total owed) bs.length (read bs) (Scan.run bs 0 (total - bs.length) owed)

section
variable {read : Bytes → Verdict (Reply × Bytes)} {total : Nat} {owed : List Nat}

theorem ended_succ (count : Nat) (rest : Bytes) :
    ended total ((count + 2) :: owed) rest =
      Scan.run rest 0 (total - rest.length) ((count + 1) :: owed) := by
  have still : settle ((count + 2) :: owed) = (count + 1) :: owed := if_pos (by omega)
  rw [ended, still]

/-- the items of an open array, the last of which ends the array -/
theorem keeps_decodeItems (follows : Follows read (owed.length + 1) total) (count : Nat)
    (bs : Bytes) (fits : bs.length ≤ total) :
    Keeps (ended total owed) bs.length (Reply.decodeItems read (count + 1) bs)
      (Scan.run bs 0 (total - bs.length) ((count + 1) :: owed)) := by
  induction count generalizing bs with
  | zero =>
    have one := follows bs (1 :: owed) rfl fits
    refine one.bind fun item rest fewer => ?_
    exact .complete [item] rest fewer
  | succ count ih =>
    have first := follows bs ((count + 2) :: owed) rfl fits
    refine first.bind fun item rest fewer => ?_
    rw [ended_succ]
    have others := (ih rest (Nat.le_trans fewer fits)).mono fewer
    exact others.bind fun items rest fewer => .complete (item :: items) rest fewer

theorem count_of_pos {n : Int64} (positive : 0 < n) :
    ∃ count, n.toInt.toNat = count + 1 ∧ n ≠ -1 ∧ ¬ n < 0 := by
  rw [Int64.lt_iff_toInt_lt] at positive
  have zero : Int64.toInt 0 = 0 := rfl
  have minus : Int64.toInt (-1) = -1 := rfl
  refine ⟨n.toInt.toNat - 1, by omega, ?_, ?_⟩
  · rintro rfl
    omega
  · rw [Int64.lt_iff_toInt_lt]
    omega

theorem meets_empty {body line after : Bytes} (all : body = line ++ Bytes.crlf ++ after) {n : Int64}
    (none : ¬ 0 < n) :
    Meets body
      (if n = -1 then .complete (.nullArray, after)
        else if n < 0 then .malformed (.arrayLength n)
        else (Reply.decodeItems read n.toInt.toNat after).bind fun (items, rest) =>
          .complete (.array items, rest))
      (Element.ofArray n (line.length + 2)) := by
  have zero : Int64.toInt 0 = 0 := rfl
  have minus : Int64.toInt (-1) = -1 := rfl
  rw [Element.ofArray, if_neg none]
  rw [Int64.lt_iff_toInt_lt] at none
  split
  · next null =>
    subst null
    exact meets_line all _
  · split
    · exact .malformed _ _
    · next sound =>
      rw [Int64.lt_iff_toInt_lt] at sound
      have nothing : n.toInt.toNat = 0 := by omega
      rw [nothing, if_neg (by rw [Int64.lt_iff_toInt_lt]; omega)]
      exact meets_line all _

/-- an array with an item at least: it is open until its last item ends -/
theorem keeps_opened (follows : Follows read (owed.length + 1) total) {body line after : Bytes}
    (all : body = line ++ Bytes.crlf ++ after) (fits : body.length + 1 ≤ total) {n : Int64}
    (positive : 0 < n)
    (element : Element.scan owed.length 0x2A body = Element.ofArray n (line.length + 2)) :
    Keeps (ended total owed) (body.length + 1)
      (if n = -1 then .complete (Reply.nullArray, after)
        else if n < 0 then .malformed (.arrayLength n)
        else (Reply.decodeItems read n.toInt.toNat after).bind fun (items, rest) =>
          .complete (Reply.array items, rest))
      (Scan.run (0x2A :: body) 0 (total - (body.length + 1)) owed) := by
  obtain ⟨count, size, some, sound⟩ := count_of_pos positive
  have length : body.length = line.length + 2 + after.length := by
    rw [all, List.length_append, length_line]
  have behind : body.drop (line.length + 2) = after := by
    rw [all]
    exact List.drop_left' List.length_append
  have here : total - (body.length + 1) + 1 + (line.length + 2) = total - after.length := by
    omega
  rw [Element.ofArray, if_pos positive, size] at element
  rw [run_cons, element]
  dsimp only [Verdict.bind]
  rw [if_neg some, if_neg sound, size, behind, here]
  have items := keeps_decodeItems follows count after (by omega)
  exact (items.mono (by omega)).bind fun items rest fewer =>
    .complete (Reply.array items) rest fewer

/-- an array with its items -/
theorem keeps_decodeArray (follows : Follows read (owed.length + 1) total)
    (shallow : owed.length < maxDepth) {body : Bytes} (fits : body.length + 1 ≤ total) :
    Keeps (ended total owed) (body.length + 1) (Reply.decodeArray read body)
      (Scan.run (0x2A :: body) 0 (total - (body.length + 1)) owed) := by
  have element := Element.scan_of_fits (fits_array shallow) body
  rw [Reply.decodeArray, frontNumber_bind]
  cases found : frontLine body with
  | incomplete =>
    apply Meets.keeps _ fits
    rw [element, found]
    exact .incomplete
  | malformed why => exact .malformed _ _
  | complete lined =>
    obtain ⟨line, after⟩ := lined
    have all := (frontLine_eq_complete_iff.mp found).1
    rw [found] at element
    change Element.scan owed.length 0x2A body =
      (lineNumber line).bind fun n => Element.ofArray n (line.length + 2) at element
    show Keeps _ _ ((lineNumber line).bind _) _
    cases number : lineNumber line with
    | incomplete =>
      apply Meets.keeps _ fits
      rw [element, number]
      exact .incomplete
    | malformed why => exact .malformed _ _
    | complete n =>
      rw [number] at element
      change Element.scan owed.length 0x2A body = Element.ofArray n (line.length + 2) at element
      by_cases positive : 0 < n
      · exact keeps_opened follows all fits positive element
      · apply Meets.keeps _ fits
        rw [element]
        exact meets_empty all positive

end

/-- with one level less for the items of every array, the scan keeps up -/
theorem follows_decodeWithin (total n : Nat) {depth : Nat} (levels : depth + n = maxDepth) :
    Follows (Reply.decodeWithin n) depth total := by
  induction n generalizing depth with
  | zero =>
    intro bs owed size fits
    cases bs with
    | nil => exact .incomplete _ _
    | cons t body =>
      by_cases array : t = 0x2A
      · subst array
        exact .malformed _ _
      · exact (meets_decodeWith array _ _ body).keeps fits
  | succ n ih =>
    intro bs owed size fits
    cases bs with
    | nil => exact .incomplete _ _
    | cons t body =>
      by_cases array : t = 0x2A
      · subst array
        have inside : Follows (Reply.decodeWithin n) (owed.length + 1) total := ih (by omega)
        exact keeps_decodeArray inside (by omega) fits
      · exact (meets_decodeWith array _ _ body).keeps fits

theorem keeps_decode (bs : Bytes) :
    Keeps (ended bs.length []) bs.length (Reply.decode bs) (Parser.holding bs).scan := by
  have h := follows_decodeWithin bs.length maxDepth (Nat.zero_add _) bs [] rfl (Nat.le_refl _)
  rw [Nat.sub_self] at h
  exact h

namespace Parser
variable {bs : Bytes}

/-! ## frames and replies -/

theorem scan_of_decode {v : Reply} {rest : Bytes} (h : Reply.decode bs = .complete (v, rest)) :
    (holding bs).scan = .frame (bs.length - rest.length) := by
  have keeps := keeps_decode bs
  rw [h] at keeps
  generalize (holding bs).scan = scan at keeps ⊢
  cases keeps
  rfl

theorem scan_of_incomplete (h : Reply.decode bs = .incomplete) :
    ∃ offset owed, (holding bs).scan = .pending offset owed := by
  have keeps := keeps_decode bs
  rw [h] at keeps
  generalize (holding bs).scan = scan at keeps ⊢
  cases keeps with
  | incomplete offset owed => exact ⟨offset, owed, rfl⟩

/-- a frame is one reply, or no reply at all -/
theorem framed {n : Nat} (h : (holding bs).scan = .frame n) :
    (∃ why, Reply.decode (bs.take n) = .malformed why) ∨
      ∃ reply, Reply.decode (bs.take n) = .complete (reply, []) := by
  obtain ⟨some, fits, whole, _⟩ := scan_frame h
  cases read : Reply.decode (bs.take n) with
  | malformed why => exact .inl ⟨why, rfl⟩
  | incomplete =>
    obtain ⟨offset, owed, pending⟩ := scan_of_incomplete read
    rw [whole] at pending
    cases pending
  | complete found =>
    obtain ⟨reply, rest⟩ := found
    have same := scan_of_decode read
    have shorter := Reply.length_lt_of_decode read
    rw [whole, Scan.frame.injEq] at same
    rw [List.length_take, Nat.min_eq_left fits] at same shorter
    have none : rest = [] := List.length_eq_zero_iff.mp (by omega)
    rw [none]
    exact .inr ⟨reply, rfl⟩

/-- a frame that is a reply is the first reply of the bytes -/
theorem decode_of_read {n : Nat} {reply : Reply}
    (h : Reply.decode (bs.take n) = .complete (reply, [])) :
    Reply.decode bs = .complete (reply, bs.drop n) := by
  have more := Reply.sequential_decode.append h (bs.drop n)
  rw [List.take_append_drop] at more
  exact more

end Parser

end RespLink
