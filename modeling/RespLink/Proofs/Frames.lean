import RespLink.Proofs.Framing
import RespLink.Reply.Encoder

/-!
# The framing of a scan

A scan does not read replies.  It knows where a value ends: with its line, with the bytes that its
line announces, or with the last of its elements.

* `Heading`    the header line of an array with elements;
* `Single`     a value that has no elements;
* `Framed`     a value of either kind with all that belongs to it, inside a number of open arrays;
* `Element.spells_of_scan`, `Heading.scan`, `Single.scan`   an element is scanned just when its
               bytes are so written;
* `Framed.settles`   a value that is framed settles one element, whatever comes behind it.

The last two bytes of a bulk string are counted and not looked at, and texts may be any bytes.
-/

namespace RespLink

/-! ## values -/

/-- a line that holds a number and nothing that ends it -/
structure Numbered (line : Bytes) (n : Int64) : Prop where
  unbroken : ¬ Bytes.crlf <:+: line
  number : lineNumber line = .complete n

/-- the header of an array of `count` elements, at least one, inside `depth` open arrays -/
inductive Heading (depth : Nat) : Nat → Bytes → Prop
  | line {line : Bytes} {n : Int64} (shallow : depth < maxDepth) (numbered : Numbered line n)
    (some : 0 < n) : Heading depth n.toInt.toNat (headerLine 0x2A line)

/-- a value without elements, inside `depth` open arrays -/
inductive Single (depth : Nat) : Bytes → Prop
  | simple {line : Bytes} (unbroken : ¬ Bytes.crlf <:+: line) : Single depth (headerLine 0x2B line)
  | error {line : Bytes} (unbroken : ¬ Bytes.crlf <:+: line) : Single depth (headerLine 0x2D line)
  | integer {line : Bytes} {n : Int64} (numbered : Numbered line n) :
    Single depth (headerLine 0x3A line)
  | null {line : Bytes} (numbered : Numbered line (-1)) : Single depth (headerLine 0x24 line)
  | bulk {line payload : Bytes} {n : Int64} (numbered : Numbered line n) (some : 0 ≤ n)
    (size : payload.length = n.toInt.toNat + 2) : Single depth (headerLine 0x24 line ++ payload)
  | empty {line : Bytes} {n : Int64} (shallow : depth < maxDepth) (numbered : Numbered line n)
    (none : n = 0 ∨ n = -1) : Single depth (headerLine 0x2A line)

/-- a value, inside `depth` open arrays -/
inductive Framed : Nat → Bytes → Prop
  | single {depth : Nat} {bs : Bytes} (h : Single depth bs) : Framed depth bs
  | array {depth count : Nat} {header : Bytes} {items : List Bytes}
    (heading : Heading depth count header) (size : items.length = count)
    (each : ∀ item ∈ items, Framed (depth + 1) item) : Framed depth (header ++ items.flatten)

theorem Heading.pos {depth count : Nat} {bs : Bytes} (h : Heading depth count bs) : 0 < count := by
  cases h with
  | line _ _ some =>
    obtain ⟨count, size, _⟩ := count_of_pos some
    omega

theorem Heading.shallow {depth count : Nat} {bs : Bytes} (h : Heading depth count bs) :
    depth < maxDepth := by
  cases h with
  | line shallow => exact shallow

/-! ## numbers -/

theorem ne_of_nonneg {n : Int64} (some : 0 ≤ n) : n ≠ -1 := by
  rintro rfl
  exact absurd some (by decide)

/-- a number of elements that is none -/
theorem none_iff {n : Int64} : ¬ 0 < n ∧ ¬ n < -1 ↔ n = 0 ∨ n = -1 := by
  have zero : Int64.toInt 0 = 0 := rfl
  have minus : Int64.toInt (-1) = -1 := rfl
  rw [Int64.lt_iff_toInt_lt, Int64.lt_iff_toInt_lt, ← Int64.toInt_inj, ← Int64.toInt_inj]
  omega

/-! ## from the scan to the bytes -/

namespace Element
variable {depth : Nat} {t : UInt8} {used : Bytes} {e : Element}

/-- the bytes of an element -/
def Spells (depth : Nat) (bs : Bytes) : Element → Prop
  | opens count _ => Heading depth count bs
  | whole _ => Single depth bs

theorem lined_of_scan (h : scan depth t used = .complete e) :
    Fits depth t ∧ ∃ line after, used = line ++ Bytes.crlf ++ after ∧ ¬ Bytes.crlf <:+: line ∧
      ofLine t line after = .complete e := by
  by_cases fits : Fits depth t
  · rw [scan_of_fits fits] at h
    obtain ⟨found, front, element⟩ := Verdict.bind_eq_complete h
    obtain ⟨all, unbroken⟩ := frontLine_eq_complete_iff.mp front
    exact ⟨fits, found.1, found.2, all, unbroken, element⟩
  · obtain ⟨why, all⟩ := scan_of_not_fits fits
    rw [all] at h
    cases h

theorem known_of_fits (fits : Fits depth t) :
    t = 0x2B ∨ t = 0x2D ∨ t = 0x3A ∨ t = 0x24 ∨ t = 0x2A ∧ depth < maxDepth := by
  obtain ⟨known, shallow⟩ := fits
  by_cases array : t = 0x2A
  · have depth : ¬ maxDepth ≤ depth := fun deep => shallow ⟨array, deep⟩
    exact .inr (.inr (.inr (.inr ⟨array, Nat.not_le.mp depth⟩)))
  · grind

/-- an element of one line uses no byte behind the line -/
theorem eq_nil_of_line {line after : Bytes}
    (all : line.length + 2 = (line ++ Bytes.crlf ++ after).length) : after = [] := by
  rw [List.length_append, length_line] at all
  exact List.length_eq_zero_iff.mp (by omega)

theorem spells_of_ofBulk {line after : Bytes} {n : Int64} (numbered : Numbered line n)
    (element : ofBulk n (line.length + 2) after = .complete e)
    (all : e.more = (line ++ Bytes.crlf ++ after).length) :
    e.Spells depth (headerLine 0x24 line ++ after) := by
  unfold ofBulk at element
  split at element
  · next null =>
    cases element
    cases null
    rw [eq_nil_of_line all, List.append_nil]
    exact Single.null numbered
  · split at element
    · cases element
    · next sound =>
      dsimp only at element
      split at element
      · cases element
      · cases element
        change line.length + 2 + n.toInt.toNat + 2 = _ at all
        rw [List.length_append, length_line] at all
        exact Single.bulk numbered (Int64.not_lt.mp sound) (by omega)

theorem spells_of_ofArray {line after : Bytes} {n : Int64} (shallow : depth < maxDepth)
    (numbered : Numbered line n) (element : ofArray n (line.length + 2) = .complete e)
    (all : e.more = (line ++ Bytes.crlf ++ after).length) :
    e.Spells depth (headerLine 0x2A line ++ after) := by
  unfold ofArray at element
  split at element
  · next some =>
    cases element
    rw [eq_nil_of_line all, List.append_nil]
    exact Heading.line shallow numbered some
  · next none =>
    split at element
    · cases element
    · next sound =>
      cases element
      rw [eq_nil_of_line all, List.append_nil]
      exact Single.empty shallow numbered (none_iff.mp ⟨none, sound⟩)

/-- what is scanned as an element is written as one -/
theorem spells_of_scan (h : scan depth t used = .complete e) (all : e.more = used.length) :
    e.Spells depth (t :: used) := by
  obtain ⟨fits, line, after, rfl, unbroken, element⟩ := lined_of_scan h
  obtain rfl | rfl | rfl | rfl | ⟨rfl, shallow⟩ := known_of_fits fits
  · cases element
    rw [eq_nil_of_line all, List.append_nil]
    exact Single.simple unbroken
  · cases element
    rw [eq_nil_of_line all, List.append_nil]
    exact Single.error unbroken
  · obtain ⟨n, number, element⟩ := Verdict.bind_eq_complete element
    cases element
    rw [eq_nil_of_line all, List.append_nil]
    exact Single.integer ⟨unbroken, number⟩
  · obtain ⟨n, number, element⟩ := Verdict.bind_eq_complete element
    exact spells_of_ofBulk ⟨unbroken, number⟩ element all
  · obtain ⟨n, number, element⟩ := Verdict.bind_eq_complete element
    exact spells_of_ofArray shallow ⟨unbroken, number⟩ element all

theorem scan_line (fits : Fits depth t) {line : Bytes} (unbroken : ¬ Bytes.crlf <:+: line)
    (after : Bytes) : scan depth t (line ++ Bytes.crlf ++ after) = ofLine t line after := by
  rw [scan_of_fits fits, frontLine_of_unbroken unbroken]
  rfl

/-- a header line that is an element by itself -/
theorem scan_headerLine (fits : Fits depth t) {line : Bytes} (unbroken : ¬ Bytes.crlf <:+: line)
    {e : Nat → Element} (element : ∀ more, ofLine t line more = .complete (e (line.length + 2))) :
    ∃ t' used, headerLine t line = t' :: used ∧
      ∀ more, scan depth t' (used ++ more) = .complete (e used.length) := by
  refine ⟨t, line ++ Bytes.crlf, rfl, fun more => ?_⟩
  rw [scan_line fits unbroken, length_line]
  exact element more

end Element

section
variable {depth count : Nat} {bs used : Bytes} {t : UInt8}

theorem Heading.of_scan
    (h : ∀ more, Element.scan depth t (used ++ more) = .complete (.opens count used.length)) :
    Heading depth count (t :: used) := by
  have alone := h []
  rw [List.append_nil] at alone
  exact Element.spells_of_scan alone rfl

theorem Single.of_scan
    (h : ∀ more, Element.scan depth t (used ++ more) = .complete (.whole used.length)) :
    Single depth (t :: used) := by
  have alone := h []
  rw [List.append_nil] at alone
  exact Element.spells_of_scan alone rfl

/-! ## from the bytes to the scan -/

theorem Heading.scan (h : Heading depth count bs) : ∃ t used, bs = t :: used ∧
    ∀ more, Element.scan depth t (used ++ more) = .complete (.opens count used.length) := by
  cases h with
  | @line line n shallow numbered some =>
    refine Element.scan_headerLine (fits_array shallow) numbered.unbroken fun more => ?_
    show (lineNumber line).bind _ = _
    rw [numbered.number]
    exact if_pos some

theorem Single.scan (h : Single depth bs) : ∃ t used, bs = t :: used ∧
    ∀ more, Element.scan depth t (used ++ more) = .complete (.whole used.length) := by
  cases h with
  | simple unbroken =>
    exact Element.scan_headerLine (fits_of_ne (by decide) (by decide)) unbroken fun more => rfl
  | error unbroken =>
    exact Element.scan_headerLine (fits_of_ne (by decide) (by decide)) unbroken fun more => rfl
  | @integer line n numbered =>
    refine Element.scan_headerLine (fits_of_ne (by decide) (by decide)) numbered.unbroken ?_
    intro more
    show (lineNumber line).bind _ = _
    rw [numbered.number]
    rfl
  | @null line numbered =>
    refine Element.scan_headerLine (fits_of_ne (by decide) (by decide)) numbered.unbroken ?_
    intro more
    show (lineNumber line).bind _ = _
    rw [numbered.number]
    rfl
  | @bulk line payload n numbered some size =>
    refine ⟨0x24, line ++ Bytes.crlf ++ payload, rfl, fun more => ?_⟩
    have long : ¬ (payload ++ more).length < n.toInt.toNat + 2 := by
      rw [List.length_append, size]
      omega
    rw [List.append_assoc, Element.scan_line (fits_of_ne (by decide) (by decide)) numbered.unbroken,
      List.length_append, length_line, size]
    show (lineNumber line).bind _ = _
    rw [numbered.number]
    show Element.ofBulk n _ _ = _
    rw [Element.ofBulk, if_neg (ne_of_nonneg some), if_neg (Int64.not_lt.mpr some)]
    exact if_neg long
  | @empty line n shallow numbered none =>
    obtain ⟨few, sound⟩ := none_iff.mpr none
    refine Element.scan_headerLine (fits_array shallow) numbered.unbroken fun more => ?_
    show (lineNumber line).bind _ = _
    rw [numbered.number]
    show Element.ofArray n _ = _
    rw [Element.ofArray, if_neg few, if_neg sound]

/-! ## values that are scanned -/

/-- the scan of these bytes, inside `depth` open arrays, settles one element and nothing else -/
def Settles (depth : Nat) (bs : Bytes) : Prop :=
  ∀ (owed : List Nat) (rest : Bytes) (offset : Nat), owed.length = depth →
    Scan.run (bs ++ rest) 0 offset owed = ended (offset + bs.length + rest.length) owed rest

theorem Single.settles (h : Single depth bs) : Settles depth bs := by
  obtain ⟨t, used, rfl, scanned⟩ := h.scan
  intro owed rest offset level
  subst level
  have here : offset + (t :: used).length + rest.length - rest.length =
      offset + 1 + used.length := by
    rw [List.length_cons]
    omega
  rw [List.cons_append, run_cons, scanned]
  dsimp only
  rw [List.drop_left, ended]
  cases settle owed with
  | nil => exact congrArg Scan.frame here.symm
  | cons n owed' => exact congrArg (Scan.run rest 0 · (n :: owed')) here.symm

/-- the items of an array, the last of which settles the array -/
theorem run_items {items : List Bytes} {owed : List Nat} {rest : Bytes} {offset : Nat}
    (each : ∀ item ∈ items, Settles (owed.length + 1) item) (some : items ≠ []) :
    Scan.run (items.flatten ++ rest) 0 offset (items.length :: owed) =
      ended (offset + items.flatten.length + rest.length) owed rest := by
  induction items generalizing offset with
  | nil => exact absurd rfl some
  | cons item items ih =>
    have first := each item List.mem_cons_self ((items.length + 1) :: owed)
      (items.flatten ++ rest) offset rfl
    have size : offset + item.length + (items.flatten ++ rest).length =
        offset + (item ++ items.flatten).length + rest.length := by
      rw [List.length_append, List.length_append]
      omega
    rw [List.flatten_cons, List.append_assoc, List.length_cons, first, size]
    cases items with
    | nil =>
      rw [List.flatten_nil, List.nil_append, List.append_nil]
      rfl
    | cons next items =>
      have others := @ih (offset + item.length)
        (fun item' inside => each item' (List.mem_cons_of_mem item inside)) (List.cons_ne_nil _ _)
      have here : offset + (item ++ (next :: items).flatten).length + rest.length -
          ((next :: items).flatten ++ rest).length = offset + item.length := by
        rw [List.length_append, List.length_append]
        omega
      rw [List.length_cons, ended_succ, here, ← List.length_cons (a := next), others,
        List.length_append, Nat.add_assoc offset]

theorem Heading.settles {items : List Bytes} (heading : Heading depth items.length bs)
    (each : ∀ item ∈ items, Settles (depth + 1) item) : Settles depth (bs ++ items.flatten) := by
  have some : items ≠ [] := List.length_pos_iff.mp heading.pos
  obtain ⟨t, used, rfl, scanned⟩ := heading.scan
  intro owed rest offset level
  subst level
  rw [List.append_assoc, List.cons_append, run_cons, scanned]
  dsimp only
  rw [List.drop_left, run_items each some]
  congr 1
  rw [List.length_append, List.length_cons]
  omega

/-- whatever it holds, a value settles one element of the array around it -/
theorem Framed.settles (h : Framed depth bs) : Settles depth bs := by
  induction h with
  | single h => exact h.settles
  | array heading size each ih =>
    subst size
    exact heading.settles ih

end
end RespLink
