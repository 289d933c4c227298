import RespLink.Reply.Decoder

/-!
# Reading from the front

A READER takes a value off the front of a byte string and returns the bytes behind it.

* `Sequential`   what is read is settled by the bytes that are used: more bytes behind them change
                 neither a value nor a fault;
* `Sequential.bind`, `Sequential.head`   one reading after another, and a choice by the first byte;
* `sequential_decode`   the reader of replies is sequential, and `length_lt_of_decode`: it uses a
                 byte at least.
-/

namespace RespLink

structure Sequential {α : Type} (read : Bytes → Verdict (α × Bytes)) : Prop where
  complete {bs : Bytes} {a : α} {rest : Bytes} (h : read bs = .complete (a, rest)) :
    ∃ used, bs = used ++ rest ∧ ∀ more, read (used ++ more) = .complete (a, more)
  malformed {bs : Bytes} {why : Malformed} (h : read bs = .malformed why) (more : Bytes) :
    read (bs ++ more) = .malformed why

namespace Sequential
variable {α β : Type} {read : Bytes → Verdict (α × Bytes)}

theorem pure (a : α) : Sequential fun bs => .complete (a, bs) where
  complete h := by
    cases h
    exact ⟨[], rfl, fun _ => rfl⟩
  malformed h := nomatch h

theorem fail (why : Malformed) : Sequential fun _ => (.malformed why : Verdict (α × Bytes)) where
  complete h := nomatch h
  malformed h _ := h

theorem wait : Sequential fun _ => (.incomplete : Verdict (α × Bytes)) where
  complete h := nomatch h
  malformed h := nomatch h

theorem bind (first : Sequential read) {next : α × Bytes → Verdict (β × Bytes)}
    (then' : ∀ a, Sequential fun rest => next (a, rest)) :
    Sequential fun bs => (read bs).bind next where
  complete {bs b rest} h := by
    cases found : read bs with
    | incomplete =>
      rw [found] at h
      cases h
    | malformed why =>
      rw [found] at h
      cases h
    | complete p =>
      rw [found] at h
      obtain ⟨used, rfl, again⟩ := first.complete found
      obtain ⟨used', split, again'⟩ := (then' p.1).complete h
      refine ⟨used ++ used', by rw [split, List.append_assoc], fun more => ?_⟩
      rw [List.append_assoc, again]
      exact again' more
  malformed {bs why} h more := by
    cases found : read bs with
    | incomplete =>
      rw [found] at h
      cases h
    | malformed why' =>
      rw [found] at h
      cases h
      rw [first.malformed found]
      rfl
    | complete p =>
      rw [found] at h
      obtain ⟨used, rfl, again⟩ := first.complete found
      rw [List.append_assoc, again]
      exact (then' p.1).malformed h more

/-- the first byte says how to go on -/
theorem head {next : UInt8 → Bytes → Verdict (α × Bytes)} (each : ∀ t, Sequential (next t))
    (empty : read [] = .incomplete) (some : ∀ t rest, read (t :: rest) = next t rest) :
    Sequential read where
  complete {bs a rest} h := by
    cases bs with
    | nil =>
      rw [empty] at h
      cases h
    | cons t body =>
      rw [some] at h
      obtain ⟨used, rfl, again⟩ := (each t).complete h
      exact ⟨t :: used, rfl, fun more => (some t (used ++ more)).trans (again more)⟩
  malformed {bs why} h more := by
    cases bs with
    | nil =>
      rw [empty] at h
      cases h
    | cons t body =>
      rw [some] at h
      exact (some t (body ++ more)).trans ((each t).malformed h more)

theorem ite {c : Prop} [Decidable c] {read' : Bytes → Verdict (α × Bytes)} (yes : Sequential read)
    (no : Sequential read') : Sequential fun bs => if c then read bs else read' bs := by
  by_cases h : c
  · simp only [if_pos h]
    exact yes
  · simp only [if_neg h]
    exact no

theorem append (seq : Sequential read) {bs rest : Bytes} {a : α} (h : read bs = .complete (a, rest))
    (more : Bytes) : read (bs ++ more) = .complete (a, rest ++ more) := by
  obtain ⟨used, rfl, again⟩ := seq.complete h
  rw [List.append_assoc, again]

/-- who reads nothing from nothing uses a byte at least -/
theorem length_lt (seq : Sequential read) (empty : read [] = .incomplete) {bs rest : Bytes} {a : α}
    (h : read bs = .complete (a, rest)) : rest.length < bs.length := by
  obtain ⟨used, rfl, again⟩ := seq.complete h
  cases used with
  | nil =>
    have none := again []
    rw [List.nil_append, empty] at none
    cases none
  | cons t used =>
    rw [List.length_append, List.length_cons]
    omega

end Sequential

/-! ## lines and numbers -/

theorem frontLine_eq_complete_iff {bs line after : Bytes} :
    frontLine bs = .complete (line, after) ↔
      bs = line ++ Bytes.crlf ++ after ∧ ¬ Bytes.crlf <:+: line := by
  rw [← Bytes.splitLine_eq_some_iff, frontLine]
  cases Bytes.splitLine bs with
  | none => constructor <;> intro h <;> cases h
  | some found =>
    show Verdict.complete found = _ ↔ _
    rw [Verdict.complete.injEq, Option.some.injEq]

theorem frontLine_of_unbroken {line : Bytes} (unbroken : ¬ Bytes.crlf <:+: line) (after : Bytes) :
    frontLine (line ++ Bytes.crlf ++ after) = .complete (line, after) :=
  frontLine_eq_complete_iff.mpr ⟨rfl, unbroken⟩

theorem sequential_frontLine : Sequential frontLine where
  complete {bs line rest} h := by
    obtain ⟨all, unbroken⟩ := frontLine_eq_complete_iff.mp h
    exact ⟨line ++ Bytes.crlf, all, frontLine_of_unbroken unbroken⟩
  malformed {bs why} h := by
    unfold frontLine at h
    split at h <;> cases h

theorem sequential_frontNumber : Sequential frontNumber :=
  sequential_frontLine.bind fun line => by
    show Sequential fun after => (lineNumber line).bind fun n => .complete (n, after)
    cases lineNumber line with
    | complete n => exact .pure n
    | incomplete => exact .wait
    | malformed why => exact .fail why

namespace Reply

/-! ## replies -/

/-- a byte string of known length, up to the end of its line -/
theorem sequential_payload (len : Nat) :
    Sequential fun bs => if bs.length < len + 2 then .incomplete
      else if (bs.drop len).take 2 = Bytes.crlf then
        .complete (bulk (bs.take len), bs.drop (len + 2))
      else .malformed .unterminated where
  complete {bs reply rest} h := by
    split at h
    · cases h
    · next long =>
      split at h
      · next ended =>
        cases h
        have size : (bs.take (len + 2)).length = len + 2 := by
          rw [List.length_take]
          omega
        refine ⟨bs.take (len + 2), (List.take_append_drop _ bs).symm, fun more => ?_⟩
        rw [if_neg (by rw [List.length_append, size]; omega),
          List.drop_append_of_le_length (by omega), List.drop_take, Nat.add_sub_cancel_left,
          List.take_append_of_le_length (by rw [List.length_take, List.length_drop]; omega),
          List.take_take, Nat.min_self, if_pos ended,
          List.take_append_of_le_length (by omega), List.take_take,
          Nat.min_eq_left (by omega), List.drop_left' size]
      · cases h
  malformed {bs why} h more := by
    split at h
    · cases h
    · next long =>
      split at h
      · cases h
      · next open' =>
        cases h
        rw [if_neg (by rw [List.length_append]; omega),
          List.drop_append_of_le_length (by omega),
          List.take_append_of_le_length (by rw [List.length_drop]; omega), if_neg open']

theorem sequential_decodeBulk (n : Int64) : Sequential (decodeBulk n) :=
  .ite (.pure null) (.ite (.fail (.bulkLength n)) (sequential_payload n.toInt.toNat))

section
variable {read : Bytes → Verdict (Reply × Bytes)}

theorem sequential_decodeItems (seq : Sequential read) (n : Nat) :
    Sequential (decodeItems read n) := by
  induction n with
  | zero => exact .pure []
  | succ n ih => exact seq.bind fun item => ih.bind fun items => .pure (item :: items)

theorem sequential_decodeArray (seq : Sequential read) : Sequential (decodeArray read) :=
  sequential_frontNumber.bind fun n =>
    .ite (.pure nullArray) (.ite (.fail (.arrayLength n))
      ((sequential_decodeItems seq n.toInt.toNat).bind fun items => .pure (array items)))

theorem sequential_decodeWith {readArray : Bytes → Verdict (Reply × Bytes)}
    (seq : Sequential readArray) : Sequential (decodeWith readArray) :=
  .head (fun t =>
    .ite (sequential_frontLine.bind fun line => .pure (simple (Utf8.lossy line)))
      (.ite (sequential_frontLine.bind fun line => .pure (error (Utf8.lossy line)))
        (.ite (sequential_frontNumber.bind fun n => .pure (integer n))
          (.ite (sequential_frontNumber.bind sequential_decodeBulk)
            (.ite seq (.fail (.typeByte t))))))) rfl fun _ _ => rfl

end

theorem sequential_decodeWithin (n : Nat) : Sequential (decodeWithin n) := by
  induction n with
  | zero => exact sequential_decodeWith (.fail _)
  | succ n ih => exact sequential_decodeWith (sequential_decodeArray ih)

theorem sequential_decode : Sequential decode := sequential_decodeWithin maxDepth

theorem decodeWithin_nil (n : Nat) : decodeWithin n [] = .incomplete := by
  cases n <;> rfl

theorem length_lt_of_decode {bs rest : Bytes} {v : Reply} (h : decode bs = .complete (v, rest)) :
    rest.length < bs.length :=
  sequential_decode.length_lt (decodeWithin_nil maxDepth) h

end Reply
end RespLink
