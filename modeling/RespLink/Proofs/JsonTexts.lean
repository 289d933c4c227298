import RespLink.Proofs.JsonGrammar

/-!
# JSON texts read back

Every text of a value is read as the value, whatever closes behind it.

* `readNumber_append`   a number, up to what cannot belong to it;
* `Speaks`              how a spelling is read as its character, and `speaks_of_charText`;
* `readString_append`   a whole literal;
* `Reads`               that a text is read as a value, and no further;
* `readItems_append`, `readMembers_append`   items and members, by induction on the list;
* `reads_of_textOf`     the value, by induction on its text;
* `documented`          so the printer and the reader do as they are to do.
-/

namespace RespLink.Json

/-! ## blanks -/

section
variable {blanks rest : List Char} {c : Char}

theorem skipBlank_append (blank : Blanks blanks) (rest : List Char) :
    skipBlank (blanks ++ rest) = skipBlank rest :=
  List.dropWhile_append_of_pos blank

theorem skipBlank_cons (h : isBlank c = false) (more : List Char) :
    skipBlank (c :: more) = c :: more :=
  List.dropWhile_cons_of_neg (by simp [h])

theorem skipBlank_eq (blank : Blanks blanks) (h : isBlank c = false) (more : List Char) :
    skipBlank (blanks ++ c :: more) = c :: more := by
  rw [skipBlank_append blank, skipBlank_cons h]

theorem skipBlank_of_blanks (blank : Blanks blanks) : skipBlank blanks = [] := by
  have read := skipBlank_append blank []
  rw [List.append_nil] at read
  exact read

end

/-! ## numbers -/

section
variable {ds rest : List Char}

/-- no digit is first -/
def Breaks (rest : List Char) : Prop := ∀ c ∈ rest.head?, isDigit c = false

/-- no number goes on with these characters -/
def Ends (rest : List Char) : Prop :=
  ∀ c ∈ rest.head?, isDigit c = false ∧ c ≠ '.' ∧ c ≠ 'e' ∧ c ≠ 'E'

theorem Ends.breaks (h : Ends rest) : Breaks rest := fun c first => (h c first).1

theorem digits_append (h : Digits ds) (breaks : Breaks rest) :
    digits (ds ++ rest) = some (ds, rest) := by
  have stops : rest.takeWhile isDigit = [] ∧ rest.dropWhile isDigit = rest := by
    cases rest with
    | nil => exact ⟨rfl, rfl⟩
    | cons c more =>
      have other : ¬ isDigit c = true := by rw [breaks c rfl]; exact Bool.false_ne_true
      exact ⟨List.takeWhile_cons_of_neg other, List.dropWhile_cons_of_neg other⟩
  have some : ¬ ds.isEmpty = true := fun none => h.1 (List.isEmpty_iff.mp none)
  rw [digits, List.takeWhile_append_of_pos h.2, List.dropWhile_append_of_pos h.2, stops.1, stops.2,
    List.append_nil]
  exact if_neg some

theorem wholePart_of_ne_zero {c : Char} (h : c ≠ '0') (more : List Char) :
    wholePart (c :: more) = digits (c :: more) := by
  rw [wholePart.eq_def]
  split
  · next same => exact absurd (List.cons.inj same).1 h
  · rfl

theorem wholePart_append (h : Whole ds) (breaks : Breaks rest) :
    wholePart (ds ++ rest) = some (ds, rest) := by
  obtain ⟨isDigits, zero⟩ := h
  cases ds with
  | nil => exact absurd rfl isDigits.1
  | cons c ds =>
    by_cases first : c = '0'
    · subst first
      cases zero rfl
      rfl
    · rw [List.cons_append, wholePart_of_ne_zero first]
      exact digits_append isDigits breaks

theorem fractionPart_append (h : Fraction ds) (breaks : Breaks rest)
    (point : rest.head? ≠ some '.') : fractionPart (ds ++ rest) = some (ds, rest) := by
  cases h with
  | absent =>
    cases rest with
    | nil => rfl
    | cons c more =>
      have other : c ≠ '.' := fun is => point (congrArg some is)
      show fractionPart (c :: more) = _
      rw [fractionPart.eq_def]
      split
      · next same => exact absurd (List.cons.inj same).1 other
      · rfl
  | @present ds isDigits =>
    show (digits (ds ++ rest)).map _ = _
    rw [digits_append isDigits breaks]
    rfl

theorem exponentPart_append (h : Exponent ds) (ends : Ends rest) :
    exponentPart (ds ++ rest) = some (ds, rest) := by
  cases h with
  | absent =>
    cases rest with
    | nil => rfl
    | cons c more =>
      obtain ⟨_, _, lower, upper⟩ := ends c rfl
      exact if_neg (not_or.mpr ⟨lower, upper⟩)
  | @present e sign ds letter signed isDigits =>
    have read := digits_append isDigits ends.breaks
    rw [List.cons_append, List.append_assoc, exponentPart.eq_def]
    dsimp only
    rw [if_pos letter]
    simp only [List.mem_cons, List.not_mem_nil, or_false] at signed
    obtain rfl | rfl | rfl := signed
    · cases ds with
      | nil => exact absurd rfl isDigits.1
      | cons d ds =>
        have digit := isDigits.2 d List.mem_cons_self
        have unsigned : ¬ (d = '+' ∨ d = '-') := by
          rintro (rfl | rfl) <;> contradiction
        rw [List.cons_append] at read
        dsimp only [List.nil_append, List.cons_append]
        rw [if_neg unsigned, read]
        rfl
    · dsimp only [List.nil_append, List.cons_append]
      rw [if_pos (.inl rfl), read]
      rfl
    · dsimp only [List.nil_append, List.cons_append]
      rw [if_pos (.inr rfl), read]
      rfl

theorem readNumber_of_ne_minus {c : Char} (h : c ≠ '-') (more : List Char) :
    readNumber (c :: more) = unsignedNumber (c :: more) := by
  rw [readNumber.eq_def]
  split
  · next same => exact absurd (List.cons.inj same).1 h
  · rfl

theorem Fraction.breaks (h : Fraction ds) (breaks : Breaks rest) : Breaks (ds ++ rest) := by
  cases h with
  | absent => exact breaks
  | present =>
    rintro c first
    cases first
    decide

/-- an exponent begins with a letter -/
theorem Exponent.breaks (h : Exponent ds) (ends : Ends rest) :
    Breaks (ds ++ rest) ∧ (ds ++ rest).head? ≠ some '.' := by
  cases h with
  | absent => exact ⟨ends.breaks, fun first => (ends '.' first).2.1 rfl⟩
  | present letter =>
    constructor
    · rintro c first
      cases first
      obtain rfl | rfl := letter <;> decide
    · rintro first
      cases first
      obtain h | h := letter <;> cases h

theorem unsignedNumber_append {whole fraction exponent : List Char} (isWhole : Whole whole)
    (isFraction : Fraction fraction) (isExponent : Exponent exponent) (ends : Ends rest) :
    unsignedNumber (whole ++ (fraction ++ (exponent ++ rest))) =
      some (whole ++ fraction ++ exponent, rest) := by
  obtain ⟨breaks, point⟩ := isExponent.breaks ends
  rw [unsignedNumber, wholePart_append isWhole (isFraction.breaks breaks), Option.bind_some]
  dsimp only
  rw [fractionPart_append isFraction breaks point, Option.bind_some]
  dsimp only
  rw [exponentPart_append isExponent ends]
  rfl

/-- a number begins with its sign or a digit -/
theorem NumberText.head (h : NumberText ds) :
    ∃ c more, ds = c :: more ∧ (c = '-' ∨ isDigit c = true) := by
  obtain ⟨signed, isWhole, _, _⟩ := h
  simp only [List.mem_cons, List.not_mem_nil, or_false] at signed
  obtain rfl | rfl := signed
  · obtain ⟨c, more, rfl⟩ := List.exists_cons_of_ne_nil isWhole.1.1
    exact ⟨c, _, rfl, .inr (isWhole.1.2 c List.mem_cons_self)⟩
  · exact ⟨'-', _, rfl, .inl rfl⟩

theorem readNumber_append (h : NumberText ds) (ends : Ends rest) :
    readNumber (ds ++ rest) = some (ds, rest) := by
  obtain ⟨signed, isWhole, isFraction, isExponent⟩ := h
  rename_i sign whole fraction exponent
  have read := unsignedNumber_append isWhole isFraction isExponent ends
  have flat : sign ++ (whole ++ (fraction ++ exponent)) ++ rest =
      sign ++ (whole ++ (fraction ++ (exponent ++ rest))) := by
    simp only [List.append_assoc]
  simp only [List.mem_cons, List.not_mem_nil, or_false] at signed
  rw [flat]
  obtain rfl | rfl := signed
  · obtain ⟨c, more, rfl⟩ := List.exists_cons_of_ne_nil isWhole.1.1
    have plain : c ≠ '-' := by
      rintro rfl
      exact absurd (isWhole.1.2 '-' List.mem_cons_self) (by decide)
    rw [List.nil_append, List.cons_append, readNumber_of_ne_minus plain, ← List.cons_append, read]
    simp only [List.append_assoc, List.nil_append]
  · show (unsignedNumber (whole ++ (fraction ++ (exponent ++ rest)))).map _ = _
    rw [read]
    simp only [List.append_assoc, Option.map_some]
    rfl

end

/-! ## string literals -/

/-- the spelling is read as these pieces, and they come to the character -/
structure Speaks (c : Char) (spelling : List Char) (ps : List Piece) : Prop where
  pieces (cs : List Char) :
    pieces 0 (spelling ++ cs) = (pieces 0 cs).map fun (qs, rest) => (ps ++ qs, rest)
  joins (qs : List Piece) : joinPieces (ps ++ qs) = (joinPieces qs).map (c :: ·)

theorem readUnit_append {hex : List Char} {u : Nat} (h : UnitText hex u) (cs : List Char) :
    readUnit (hex ++ cs) = some (u, cs) := by
  obtain ⟨first, second, third, fourth⟩ := h
  simp only [List.cons_append, readUnit, first, second, third, fourth]
  rfl

theorem pieces_unit {hex : List Char} {u : Nat} (h : UnitText hex u) (cs : List Char) :
    pieces 0 ('\\' :: 'u' :: (hex ++ cs)) =
      (pieces 0 cs).map fun (qs, rest) => (.unit u :: qs, rest) := by
  have read := readUnit_append h cs
  obtain ⟨_, _, _, _⟩ := h
  show (readUnit _).bind _ = _
  rw [read]
  rfl

theorem speaks_of_charText {c : Char} {spelling : List Char} (h : CharText c spelling) :
    ∃ ps, Speaks c spelling ps := by
  cases h with
  | plain quote backslash printed =>
    refine ⟨[.char c], fun cs => ?_, fun qs => rfl⟩
    rw [List.singleton_append, pieces.eq_def]
    dsimp only
    rw [if_neg quote, if_neg backslash, if_neg printed]
    rfl
  | @named _ e name =>
    refine ⟨[.char c], fun cs => ?_, fun qs => rfl⟩
    have other : e ≠ 'u' := by
      rintro rfl
      cases name
    rw [List.cons_append, List.cons_append, List.nil_append, pieces.eq_def]
    dsimp only
    rw [if_neg (by decide), if_pos rfl, if_neg other, name]
    rfl
  | @unit hex u spelt whole =>
    refine ⟨[.unit u], pieces_unit spelt, fun qs => ?_⟩
    rw [List.singleton_append, joinPieces.eq_def]
    dsimp only
    rw [whole.1, whole.2]
    rfl
  | @pair hex hex' u v spelt spelt' high low =>
    refine ⟨[.unit u, .unit v], fun cs => ?_, fun qs => ?_⟩
    · have flat : '\\' :: 'u' :: (hex ++ '\\' :: 'u' :: hex') ++ cs =
          '\\' :: 'u' :: (hex ++ '\\' :: 'u' :: (hex' ++ cs)) := by simp
      rw [flat, pieces_unit spelt, pieces_unit spelt', Option.map_map]
      rfl
    · rw [List.cons_append, List.singleton_append, joinPieces.eq_def]
      dsimp only
      rw [if_pos high, if_pos low]

theorem readString_append {text body : List Char} (h : StringText text body) (rest : List Char) :
    readString (body ++ '"' :: rest) = some (some text, rest) := by
  have read : ∃ ps, pieces 0 (body ++ '"' :: rest) = some (ps, rest) ∧
      joinPieces ps = some text := by
    induction h with
    | nil => exact ⟨[], rfl, rfl⟩
    | @cons c spelling text body first _ ih =>
      obtain ⟨ps, speaks⟩ := speaks_of_charText first
      obtain ⟨qs, pieces, joins⟩ := ih
      refine ⟨ps ++ qs, ?_, ?_⟩
      · rw [List.append_assoc, speaks.pieces, pieces]
        rfl
      · rw [speaks.joins, joins]
        rfl
  obtain ⟨ps, pieces, joins⟩ := read
  rw [readString, pieces, Option.map_some]
  dsimp only
  rw [joins]

/-! ## values -/

/-- what stands behind a value, inside another or not -/
def Closes (rest : List Char) : Prop :=
  ∀ c ∈ rest.head?, c = ',' ∨ c = ']' ∨ c = '\x7d' ∨ isBlank c = true

theorem Closes.ends {rest : List Char} (h : Closes rest) : Ends rest := by
  intro c first
  obtain rfl | rfl | rfl | blank := h c first
  · decide
  · decide
  · decide
  · simp only [isBlank, Bool.or_eq_true, beq_iff_eq] at blank
    obtain ((rfl | rfl) | rfl) | rfl := blank <;> decide

theorem closes_cons {c : Char} (h : c = ',' ∨ c = ']' ∨ c = '\x7d') (rest : List Char) :
    Closes (c :: rest) := by
  rintro d first
  cases first
  obtain comma | bracket | brace := h
  · exact .inl comma
  · exact .inr (.inl bracket)
  · exact .inr (.inr (.inl brace))

/-- blanks may come before what closes -/
theorem closes_append {blanks rest : List Char} (blank : Blanks blanks) (h : Closes rest) :
    Closes (blanks ++ rest) := by
  cases blanks with
  | nil => exact h
  | cons c blanks =>
    rintro d first
    cases first
    exact .inr (.inr (.inr (blank c List.mem_cons_self)))

/-- what tells one kind of value from another is no part of a number -/
theorem ne_of_head {c : Char} (h : c = '-' ∨ isDigit c = true) :
    isBlank c = false ∧ ∀ d ∈ ['"', '[', ']', '\x7b', 'n', 't', 'f'], c ≠ d := by
  constructor
  · rw [Bool.eq_false_iff, isBlank]
    intro blank
    simp only [Bool.or_eq_true, beq_iff_eq] at blank
    obtain ((rfl | rfl) | rfl) | rfl := blank <;> obtain minus | digit := h <;> contradiction
  · rintro d other rfl
    simp only [List.mem_cons, List.not_mem_nil, or_false] at other
    obtain rfl | rfl | rfl | rfl | rfl | rfl | rfl := other <;> obtain minus | digit := h <;>
      contradiction

/-- the text is read as the value, and no further -/
def Reads (value : Json) (text : List Char) : Prop := ∀ fuel rest, 2 * text.length ≤ fuel →
  Closes rest → readValue fuel (text ++ rest) = some (value, rest)

/-- a text begins with no blank, and not with what closes an array -/
theorem TextOf.head {value : Json} {text : List Char} (h : TextOf value text) :
    ∃ c more, text = c :: more ∧ isBlank c = false ∧ c ≠ ']' := by
  cases h with
  | null => exact ⟨'n', _, rfl, by decide, by decide⟩
  | bool b =>
    cases b with
    | true => exact ⟨'t', _, rfl, by decide, by decide⟩
    | false => exact ⟨'f', _, rfl, by decide, by decide⟩
  | number form =>
    obtain ⟨c, more, rfl, first⟩ := form.head
    obtain ⟨blank, apart⟩ := ne_of_head first
    exact ⟨c, more, rfl, blank, apart ']' (by decide)⟩
  | string _ => exact ⟨'"', _, rfl, by decide, by decide⟩
  | array _ _ _ => exact ⟨'[', _, rfl, by decide, by decide⟩
  | object _ _ _ _ => exact ⟨'\x7b', _, rfl, by decide, by decide⟩

theorem readValue_blanks {blanks : List Char} (blank : Blanks blanks) (fuel : Nat)
    (cs : List Char) : readValue fuel (blanks ++ cs) = readValue fuel cs := by
  cases fuel with
  | zero => rw [readValue, readValue]
  | succ fuel => rw [readValue, readValue, skipBlank_append blank]

theorem keyword_append (word rest : List Char) (value : Json) :
    keyword word value (word ++ rest) = some (value, rest) := by
  rw [keyword, List.take_left, if_pos rfl, List.drop_left]

/-! ### scalars -/

theorem reads_null : Reads null "null".toList := by
  rintro (_ | fuel) rest enough _
  · cases enough
  · rw [readValue]
    exact keyword_append "null".toList rest null

theorem reads_bool (b : Bool) :
    Reads (bool b) (if b then "true".toList else "false".toList) := by
  rintro (_ | fuel) rest enough _
  · cases b <;> cases enough
  · rw [readValue]
    cases b with
    | true => exact keyword_append "true".toList rest (bool true)
    | false => exact keyword_append "false".toList rest (bool false)

theorem reads_string {text body : List Char} (spelt : StringText text body) :
    Reads (string text) ('"' :: (body ++ ['"'])) := by
  rintro (_ | fuel) rest enough _
  · cases enough
  · have flat : '"' :: (body ++ ['"']) ++ rest = '"' :: (body ++ '"' :: rest) := by simp
    rw [flat, readValue]
    show (readString (body ++ '"' :: rest)).map _ = _
    rw [readString_append spelt]
    rfl

theorem reads_number {literal : List Char} (form : NumberText literal) :
    Reads (number literal) literal := by
  intro fuel rest enough closes
  have read := readNumber_append form closes.ends
  obtain ⟨c, more, rfl, first⟩ := form.head
  cases fuel with
  | zero => cases enough
  | succ fuel =>
    obtain ⟨blank, apart⟩ := ne_of_head first
    rw [readValue, List.cons_append, skipBlank_cons blank]
    dsimp only
    rw [if_neg (apart _ (by decide)), if_neg (apart _ (by decide)), if_neg (apart _ (by decide)),
      if_neg (apart _ (by decide)), if_neg (apart _ (by decide)), if_neg (apart _ (by decide)),
      ← List.cons_append, read]
    rfl

/-! ### items and members -/

/-- a slot is read as its value, up to the token behind its blanks -/
theorem Slot.readValue_append {s : Slot} (airy : s.Airy) (reads : Reads s.value s.text) {c : Char}
    (closing : c = ',' ∨ c = ']' ∨ c = '\x7d') {fuel : Nat} (enough : 2 * s.text.length ≤ fuel)
    (rest : List Char) :
    readValue fuel (s.whole ++ c :: rest) = some (s.value, s.after ++ c :: rest) := by
  rw [whole, List.append_assoc, List.append_assoc, readValue_blanks airy.1]
  exact reads fuel _ enough (closes_append airy.2 (closes_cons closing rest))

theorem isBlank_of_closing {c : Char} (closing : c = ',' ∨ c = ']' ∨ c = '\x7d') :
    isBlank c = false := by
  obtain rfl | rfl | rfl := closing <;> decide

theorem readItems_append {slots : List Slot} (nonempty : slots ≠ []) (airy : ∀ s ∈ slots, s.Airy)
    (each : ∀ s ∈ slots, Reads s.value s.text) {fuel : Nat}
    (enough : 2 * (commas (slots.map Slot.whole)).length < fuel) (rest : List Char) :
    readItems fuel (commas (slots.map Slot.whole) ++ ']' :: rest) =
      some (slots.map Slot.value, rest) := by
  induction slots generalizing fuel with
  | nil => exact absurd rfl nonempty
  | cons s slots ih =>
    obtain ⟨first, others⟩ := List.forall_mem_cons.mp each
    obtain ⟨light, lighter⟩ := List.forall_mem_cons.mp airy
    have size : s.text.length ≤ s.whole.length := by
      simp only [Slot.whole, List.length_append]
      omega
    obtain _ | fuel := fuel
    · cases enough
    cases slots with
    | nil =>
      replace enough : 2 * s.whole.length < fuel + 1 := enough
      show readItems (fuel + 1) (s.whole ++ ']' :: rest) = _
      rw [readItems, Slot.readValue_append light first (.inr (.inl rfl)) (by omega),
        Option.bind_some]
      dsimp only
      rw [skipBlank_eq light.2 (by decide)]
      rfl
    | cons next slots =>
      have whole : commas ((s :: next :: slots).map Slot.whole) ++ ']' :: rest =
          s.whole ++ ',' :: (commas ((next :: slots).map Slot.whole) ++ ']' :: rest) := by
        simp [commas]
      have total : (commas ((s :: next :: slots).map Slot.whole)).length =
          s.whole.length + (commas ((next :: slots).map Slot.whole)).length + 1 := by
        simp only [List.map_cons, commas, List.length_append, List.length_cons]
        omega
      rw [whole, readItems, Slot.readValue_append light first (.inl rfl) (by omega),
        Option.bind_some]
      dsimp only
      rw [skipBlank_eq light.2 (by decide)]
      dsimp only
      rw [if_pos rfl, ih (List.cons_ne_nil next slots) lighter others (by omega)]
      rfl

/-- one member, up to the token behind its value -/
theorem readMembers_cons {e : Entry} (airy : e.Airy) (named : StringText e.key e.name)
    (reads : Reads e.slot.value e.slot.text) {c : Char} (closing : c = ',' ∨ c = ']' ∨ c = '\x7d')
    {fuel : Nat} (enough : 2 * e.slot.text.length ≤ fuel) (rest : List Char) :
    readMembers (fuel + 1) (e.whole ++ c :: rest) =
      if c = ',' then
        (readMembers fuel rest).map fun (members, rest) => (e.member :: members, rest)
      else if c = '\x7d' then some ([e.member], rest)
      else none := by
  obtain ⟨before, after, light⟩ := airy
  have flat : e.whole ++ c :: rest =
      e.before ++ '"' :: (e.name ++ '"' :: (e.after ++ ':' :: (e.slot.whole ++ c :: rest))) := by
    simp [Entry.whole]
  rw [flat, readMembers, skipBlank_eq before (by decide)]
  show (readString _).bind _ = _
  rw [readString_append named, Option.bind_some]
  dsimp only
  rw [skipBlank_eq after (by decide)]
  show (readValue fuel _).bind _ = _
  rw [Slot.readValue_append light reads closing enough, Option.bind_some]
  dsimp only
  rw [skipBlank_eq light.2 (isBlank_of_closing closing)]
  rfl

theorem readMembers_append {entries : List Entry} (nonempty : entries ≠ [])
    (airy : ∀ e ∈ entries, e.Airy) (named : ∀ e ∈ entries, StringText e.key e.name)
    (each : ∀ e ∈ entries, Reads e.slot.value e.slot.text) {fuel : Nat}
    (enough : 2 * (commas (entries.map Entry.whole)).length < fuel) (rest : List Char) :
    readMembers fuel (commas (entries.map Entry.whole) ++ '\x7d' :: rest) =
      some (entries.map Entry.member, rest) := by
  induction entries generalizing fuel with
  | nil => exact absurd rfl nonempty
  | cons e entries ih =>
    obtain ⟨first, others⟩ := List.forall_mem_cons.mp each
    obtain ⟨light, lighter⟩ := List.forall_mem_cons.mp airy
    obtain ⟨keyed, othersKeyed⟩ := List.forall_mem_cons.mp named
    have size : e.slot.text.length ≤ e.whole.length := by
      simp only [Entry.whole, Slot.whole, List.length_append, List.length_cons]
      omega
    obtain _ | fuel := fuel
    · cases enough
    cases entries with
    | nil =>
      replace enough : 2 * e.whole.length < fuel + 1 := enough
      exact readMembers_cons light keyed first (.inr (.inr rfl)) (by omega) rest
    | cons next entries =>
      have whole : commas ((e :: next :: entries).map Entry.whole) ++ '\x7d' :: rest =
          e.whole ++ ',' :: (commas ((next :: entries).map Entry.whole) ++ '\x7d' :: rest) := by
        simp [commas]
      have total : (commas ((e :: next :: entries).map Entry.whole)).length =
          e.whole.length + (commas ((next :: entries).map Entry.whole)).length + 1 := by
        simp only [List.map_cons, commas, List.length_append, List.length_cons]
        omega
      rw [whole, readMembers_cons light keyed first (.inl rfl) (by omega), if_pos rfl,
        ih (List.cons_ne_nil next entries) lighter othersKeyed others (by omega)]
      rfl

/-! ### all values -/

theorem readItems_blanks {blanks : List Char} (blank : Blanks blanks) (fuel : Nat)
    (cs : List Char) : readItems fuel (blanks ++ cs) = readItems fuel cs := by
  cases fuel with
  | zero => rw [readItems, readItems]
  | succ fuel => rw [readItems, readItems, readValue_blanks blank]

theorem readMembers_blanks {blanks : List Char} (blank : Blanks blanks) (fuel : Nat)
    (cs : List Char) : readMembers fuel (blanks ++ cs) = readMembers fuel cs := by
  cases fuel with
  | zero => rw [readMembers, readMembers]
  | succ fuel => rw [readMembers, readMembers, skipBlank_append blank]

theorem commas_cons (part : List Char) (parts : List (List Char)) :
    ∃ more, commas (part :: parts) = part ++ more := by
  cases parts with
  | nil => exact ⟨[], (List.append_nil part).symm⟩
  | cons next parts => exact ⟨_, rfl⟩

theorem expect_self (c : Char) (more : List Char) : expect c (c :: more) = some more := if_pos rfl

theorem expect_of_ne {c d : Char} (h : d ≠ c) (more : List Char) : expect c (d :: more) = none :=
  if_neg h

/-- an array that is closed at once -/
theorem readValue_empty_array {cs rest : List Char}
    (closed : expect ']' (skipBlank cs) = some rest) (fuel : Nat) :
    readValue (fuel + 1) ('[' :: cs) = some (array [], rest) := by
  rw [readValue, skipBlank_cons (by decide)]
  dsimp only
  rw [if_neg (by decide), if_pos rfl, closed]

/-- and an object -/
theorem readValue_empty_object {cs rest : List Char}
    (closed : expect '\x7d' (skipBlank cs) = some rest) (fuel : Nat) :
    readValue (fuel + 1) ('\x7b' :: cs) = some (object [], rest) := by
  rw [readValue, skipBlank_cons (by decide)]
  dsimp only
  rw [if_neg (by decide), if_neg (by decide), if_pos rfl, closed]

/-- an array that is not closed at once has items -/
theorem readValue_array {cs : List Char} (more : expect ']' (skipBlank cs) = none) (fuel : Nat) :
    readValue (fuel + 1) ('[' :: cs) =
      (readItems fuel cs).map fun found => (array found.1, found.2) := by
  rw [readValue, skipBlank_cons (by decide)]
  dsimp only
  rw [if_neg (by decide), if_pos rfl, more]

/-- and an object has members -/
theorem readValue_object {cs : List Char} (more : expect '\x7d' (skipBlank cs) = none)
    (fuel : Nat) :
    readValue (fuel + 1) ('\x7b' :: cs) =
      (readMembers fuel cs).map fun found => (object found.1, found.2) := by
  rw [readValue, skipBlank_cons (by decide)]
  dsimp only
  rw [if_neg (by decide), if_neg (by decide), if_pos rfl, more]

theorem reads_array {blanks : List Char} {slots : List Slot} (blank : Blanks blanks)
    (airy : ∀ s ∈ slots, s.Airy) (texts : ∀ s ∈ slots, TextOf s.value s.text)
    (each : ∀ s ∈ slots, Reads s.value s.text) :
    Reads (array (slots.map Slot.value))
      ('[' :: (blanks ++ (commas (slots.map Slot.whole) ++ [']']))) := by
  rintro (_ | fuel) rest enough _
  · cases enough
  have flat : '[' :: (blanks ++ (commas (slots.map Slot.whole) ++ [']'])) ++ rest =
      '[' :: (blanks ++ (commas (slots.map Slot.whole) ++ ']' :: rest)) := by simp
  simp only [List.length_cons, List.length_append] at enough
  rw [flat]
  cases slots with
  | nil =>
    have closed : expect ']' (skipBlank (blanks ++ ']' :: rest)) = some rest := by
      rw [skipBlank_eq blank (by decide), expect_self]
    exact readValue_empty_array closed fuel
  | cons s slots =>
    obtain ⟨c, more, text, first, other⟩ := (texts s List.mem_cons_self).head
    obtain ⟨tail, begins⟩ := commas_cons s.whole (slots.map Slot.whole)
    have shown : skipBlank (blanks ++ (commas ((s :: slots).map Slot.whole) ++ ']' :: rest)) =
        c :: (more ++ s.after ++ tail ++ ']' :: rest) := by
      have front : commas ((s :: slots).map Slot.whole) ++ ']' :: rest =
          s.before ++ c :: (more ++ s.after ++ tail ++ ']' :: rest) := by
        rw [List.map_cons, begins, Slot.whole, text]
        simp
      rw [front, skipBlank_append blank, skipBlank_eq (airy s List.mem_cons_self).1 first]
    rw [readValue_array (by rw [shown, expect_of_ne other]), readItems_blanks blank,
      readItems_append (List.cons_ne_nil s slots) airy each (by omega)]
    rfl

theorem reads_object {blanks : List Char} {entries : List Entry} (blank : Blanks blanks)
    (airy : ∀ e ∈ entries, e.Airy) (named : ∀ e ∈ entries, StringText e.key e.name)
    (each : ∀ e ∈ entries, Reads e.slot.value e.slot.text) :
    Reads (object (entries.map Entry.member))
      ('\x7b' :: (blanks ++ (commas (entries.map Entry.whole) ++ ['\x7d']))) := by
  rintro (_ | fuel) rest enough _
  · cases enough
  have flat : '\x7b' :: (blanks ++ (commas (entries.map Entry.whole) ++ ['\x7d'])) ++ rest =
      '\x7b' :: (blanks ++ (commas (entries.map Entry.whole) ++ '\x7d' :: rest)) := by simp
  simp only [List.length_cons, List.length_append] at enough
  rw [flat]
  cases entries with
  | nil =>
    have closed : expect '\x7d' (skipBlank (blanks ++ '\x7d' :: rest)) = some rest := by
      rw [skipBlank_eq blank (by decide), expect_self]
    exact readValue_empty_object closed fuel
  | cons e entries =>
    obtain ⟨tail, begins⟩ := commas_cons e.whole (entries.map Entry.whole)
    have shown : expect '\x7d' (skipBlank
        (blanks ++ (commas ((e :: entries).map Entry.whole) ++ '\x7d' :: rest))) = none := by
      have front : commas ((e :: entries).map Entry.whole) ++ '\x7d' :: rest =
          e.before ++ '"' :: (e.name ++ '"' :: (e.after ++ ':' :: e.slot.whole) ++ tail ++
            '\x7d' :: rest) := by
        rw [List.map_cons, begins, Entry.whole]
        simp
      rw [front, skipBlank_append blank, skipBlank_eq (airy e List.mem_cons_self).1 (by decide)]
      rfl
    rw [readValue_object shown, readMembers_blanks blank,
      readMembers_append (List.cons_ne_nil e entries) airy named each (by omega)]
    rfl

/-- **Every text of a value is read as the value, whatever closes behind it.** -/
theorem reads_of_textOf {value : Json} {text : List Char} (h : TextOf value text) :
    Reads value text := by
  induction h with
  | null => exact reads_null
  | bool b => exact reads_bool b
  | number form => exact reads_number form
  | string spelt => exact reads_string spelt
  | array blank airy texts ih => exact reads_array blank airy texts ih
  | object blank airy named _ ih => exact reads_object blank airy named ih

theorem parse?_of_textOf {value : Json} {text before after : List Char} (h : TextOf value text)
    (blank : Blanks before) (blank' : Blanks after) :
    parse? (before ++ (text ++ after)) = some value := by
  have closes : Closes after := by
    have closes := @closes_append after [] blank' nofun
    rw [List.append_nil] at closes
    exact closes
  have read := reads_of_textOf h (2 * (before ++ (text ++ after)).length + 2) after
    (by simp only [List.length_append]; omega) closes
  rw [parse?, readValue_blanks blank, read, Option.bind_some]
  dsimp only
  rw [skipBlank_of_blanks blank']
  rfl

/-- **The printer and the reader do as they are to do.** -/
theorem documented : Documented print parse? := ⟨textOf_print, parse?_of_textOf⟩

end RespLink.Json
