import RespLink.Proofs.Frames
import RespLink.Proofs.Streams

/-!
# Where a scan stands

A parser keeps one number for the bytes that are scanned and one for each open array.  They stand
for a value that has arrived in part: the bytes are the header lines of the open arrays, each with
the elements that have ended, and a count is what the array has announced less these.

* `Level`          an open array, and `written` the bytes of such arrays, the outermost first;
* `settle_levels`  what one more value does to the levels, whether it ends arrays or not;
* `Parser.Stands`  the place of a parser, spelt by levels;
* `Course.lands`   a scan keeps to places that levels spell, and a frame is a value;
* `Parser.scan_eq_frame_iff`   what is a frame to the scan is a value, and nothing else is;
* `laps`           the scan as a loop whose counts may not fall below zero;
* `Course.laps_eq`   the loop ends, and as the scan does;
* `Parser.scan_placed`   all of this for every parser that feeding and resetting lead to.
-/

namespace RespLink

/-! ## open arrays -/

/-- an array that is open: its header, the number of elements it announces, and those that have
ended -/
structure Level where
  header : Bytes
  count : Nat
  done : List Bytes
deriving DecidableEq, Repr

namespace Level

def bytes (l : Level) : Bytes := l.header ++ l.done.flatten

/-- the elements that are missing; the one that is open is one of them -/
def owed (l : Level) : Nat := l.count - l.done.length

/-- the level with one more element that has ended -/
def add (l : Level) (item : Bytes) : Level := { l with done := l.done ++ [item] }

/-- an open array inside `depth` others -/
structure Sound (depth : Nat) (l : Level) : Prop where
  heading : Heading depth l.count l.header
  done : ∀ item ∈ l.done, Framed (depth + 1) item
  short : l.done.length < l.count

section
variable {depth : Nat} {l : Level} {item : Bytes}

theorem bytes_add (l : Level) (item : Bytes) : (l.add item).bytes = l.bytes ++ item := by
  show l.header ++ (l.done ++ [item]).flatten = l.header ++ l.done.flatten ++ item
  rw [List.flatten_append, List.flatten_singleton, List.append_assoc]

theorem length_add (l : Level) (item : Bytes) : (l.add item).done.length = l.done.length + 1 :=
  List.length_append

theorem Sound.done_add (sound : Sound depth l) (framed : Framed (depth + 1) item) :
    ∀ item' ∈ (l.add item).done, Framed (depth + 1) item' := by
  intro item' inside
  obtain before | last := List.mem_append.mp inside
  · exact sound.done item' before
  · rw [List.mem_singleton.mp last]
    exact framed

theorem Sound.add (sound : Sound depth l) (framed : Framed (depth + 1) item)
    (short : l.done.length + 1 < l.count) : Sound depth (l.add item) where
  heading := sound.heading
  done := sound.done_add framed
  short := by rw [length_add]; exact short

/-- with its last element the array is a value itself -/
theorem Sound.framed_add (sound : Sound depth l) (framed : Framed (depth + 1) item)
    (full : l.done.length + 1 = l.count) : Framed depth (l.add item).bytes :=
  .array sound.heading (by rw [length_add]; exact full) (sound.done_add framed)

end
end Level

/-- levels, the innermost first, each inside all that follow -/
inductive Nested : List Level → Prop
  | nil : Nested []
  | cons {l : Level} {outer : List Level} (sound : l.Sound outer.length) (nested : Nested outer) :
    Nested (l :: outer)

/-- the bytes of levels, those of the outermost first -/
def written : List Level → Bytes
  | [] => []
  | l :: outer => written outer ++ l.bytes

section
variable {levels : List Level}

theorem Nested.length_le (nested : Nested levels) : levels.length ≤ maxDepth := by
  cases nested with
  | nil => exact Nat.zero_le _
  | cons sound => exact sound.heading.shallow

theorem Nested.pos (nested : Nested levels) : ∀ n ∈ levels.map Level.owed, 0 < n := by
  induction nested with
  | nil => exact fun n inside => absurd inside List.not_mem_nil
  | cons sound nested ih =>
    rw [List.map_cons, List.forall_mem_cons]
    exact ⟨Nat.sub_pos_of_lt sound.short, ih⟩

/-- a value that ends is the last one of all, or it leaves levels that are open still -/
theorem settle_levels (nested : Nested levels) {item : Bytes} (framed : Framed levels.length item) :
    (settle (levels.map Level.owed) = [] ∧ Framed 0 (written levels ++ item)) ∨
      ∃ l outer, Nested (l :: outer) ∧
        settle (levels.map Level.owed) = (l :: outer).map Level.owed ∧
        written (l :: outer) = written levels ++ item := by
  induction nested generalizing item with
  | nil => exact .inl ⟨rfl, framed⟩
  | @cons l outer sound nested ih =>
    have short := sound.short
    by_cases more : l.done.length + 1 < l.count
    · refine .inr ⟨l.add item, outer, .cons (sound.add framed more) nested, ?_, ?_⟩
      · have still : (l.add item).owed = l.owed - 1 := by
          show l.count - (l.add item).done.length = l.count - l.done.length - 1
          rw [Level.length_add]
          omega
        have some : 1 < l.owed := by
          show 1 < l.count - l.done.length
          omega
        rw [List.map_cons, List.map_cons, still]
        exact if_pos some
      · rw [written, written, Level.bytes_add, List.append_assoc]
    · -- the array ends with its last element, which is one value of the array around it
      have value := sound.framed_add framed (by omega)
      have last : ¬ 1 < l.owed := by
        show ¬ 1 < l.count - l.done.length
        omega
      have settled : settle ((l :: outer).map Level.owed) = settle (outer.map Level.owed) :=
        if_neg last
      have all : written (l :: outer) ++ item = written outer ++ (l.add item).bytes := by
        rw [written, Level.bytes_add, List.append_assoc]
      rw [settled, all]
      exact ih value

end

/-! ## places -/

/-- the place of a parser, spelt by levels -/
structure Parser.Stands (p : Parser) (levels : List Level) : Prop where
  nested : Nested levels
  within : p.offset ≤ p.buffer.length
  spelt : p.buffer.take p.offset = written levels
  owed : p.owed = levels.map Level.owed

section
variable {bs used rest : Bytes} {t : UInt8} {offset : Nat} {owed : List Nat} {levels : List Level}

theorem take_onward (here : bs.drop offset = t :: (used ++ rest)) :
    bs.take (offset + 1 + used.length) = bs.take offset ++ t :: used := by
  rw [Nat.add_assoc, Nat.add_comm 1, List.take_add, here, List.take_succ_cons, List.take_left]

theorem drop_onward (here : bs.drop offset = t :: (used ++ rest)) :
    bs.drop (offset + 1 + used.length) = rest := by
  rw [Nat.add_assoc, Nat.add_comm 1, ← List.drop_drop, here, List.drop_succ_cons, List.drop_left]

theorem within_onward (here : bs.drop offset = t :: (used ++ rest)) :
    offset + 1 + used.length ≤ bs.length := by
  have size := congrArg List.length here
  rw [List.length_drop, List.length_cons, List.length_append] at size
  omega

theorem Parser.stands_holding (bs : Bytes) : (Parser.holding bs).Stands [] where
  nested := .nil
  within := Nat.zero_le _
  spelt := rfl
  owed := rfl

theorem Parser.Stands.length_owed {p : Parser} (stands : p.Stands levels) :
    p.owed.length = levels.length := by
  rw [stands.owed, List.length_map]

/-- a header line opens a level -/
theorem Parser.Stands.opens (stands : Parser.Stands ⟨bs, offset, owed⟩ levels)
    (here : bs.drop offset = t :: (used ++ rest)) {count : Nat}
    (heading : Heading owed.length count (t :: used)) :
    Parser.Stands ⟨bs, offset + 1 + used.length, count :: owed⟩
      (⟨t :: used, count, []⟩ :: levels) where
  nested := by
    refine .cons ⟨?_, fun item inside => absurd inside List.not_mem_nil, heading.pos⟩ stands.nested
    rw [← stands.length_owed]
    exact heading
  within := within_onward here
  spelt := by
    show bs.take _ = written levels ++ (t :: used ++ List.flatten [])
    rw [take_onward here, ← stands.spelt, List.flatten_nil, List.append_nil]
  owed := congrArg (count :: ·) stands.owed

/-- a value that ends is all of the frame, or levels stay open -/
theorem Parser.Stands.ends (stands : Parser.Stands ⟨bs, offset, owed⟩ levels)
    (here : bs.drop offset = t :: (used ++ rest)) (single : Single owed.length (t :: used)) :
    (settle owed = [] ∧ Framed 0 (bs.take (offset + 1 + used.length))) ∨
      ∃ levels', settle owed ≠ [] ∧
        Parser.Stands ⟨bs, offset + 1 + used.length, settle owed⟩ levels' := by
  have framed : Framed levels.length (t :: used) := by
    rw [← stands.length_owed]
    exact .single single
  have same : owed = levels.map Level.owed := stands.owed
  have bytes : bs.take (offset + 1 + used.length) = written levels ++ t :: used := by
    rw [take_onward here, ← stands.spelt]
  rw [same, bytes]
  obtain all | ⟨l, outer, nested, settled, spelt⟩ := settle_levels stands.nested framed
  · exact .inl all
  · refine .inr ⟨l :: outer, ?_, nested, within_onward here, bytes.trans spelt.symm, settled⟩
    rw [settled]
    exact List.cons_ne_nil _ _

/-! ## a scan from place to place -/

/-- what a scan from `start` comes to: a value, or a place further on -/
inductive Lands (bs : Bytes) (start : Nat) : Scan → Prop
  | frame {n : Nat} (within : n ≤ bs.length) (value : Framed 0 (bs.take n)) :
    Lands bs start (.frame n)
  | pending {offset : Nat} {owed : List Nat} {levels : List Level} (onward : start ≤ offset)
    (stands : Parser.Stands ⟨bs, offset, owed⟩ levels) : Lands bs start (.pending offset owed)
  | fault {why : Malformed} {offset : Nat} {owed : List Nat} {levels : List Level}
    (onward : start ≤ offset) (stands : Parser.Stands ⟨bs, offset, owed⟩ levels) :
    Lands bs start (.fault why offset owed)

theorem Lands.of_le {start start' : Nat} {scan : Scan} (lands : Lands bs start' scan)
    (le : start ≤ start') : Lands bs start scan := by
  cases lands with
  | frame within value => exact .frame within value
  | pending onward stands => exact .pending (Nat.le_trans le onward) stands
  | fault onward stands => exact .fault (Nat.le_trans le onward) stands

theorem Course.lands {scan : Scan} (h : Course rest offset owed scan) (here : bs.drop offset = rest)
    (stands : Parser.Stands ⟨bs, offset, owed⟩ levels) : Lands bs offset scan := by
  induction h generalizing levels with
  | dry => exact .pending (Nat.le_refl _) stands
  | waits => exact .pending (Nat.le_refl _) stands
  | faults => exact .fault (Nat.le_refl _) stands
  | @opens t used rest offset owed count scan h on ih =>
    have heading : Heading owed.length count (t :: used) := Heading.of_scan h
    exact (ih (drop_onward here) (stands.opens here heading)).of_le (by omega)
  | @closes t used rest offset owed h done =>
    have single : Single owed.length (t :: used) := Single.of_scan h
    obtain ⟨_, value⟩ | ⟨levels', left, _⟩ := stands.ends here single
    · exact .frame (within_onward here) value
    · exact absurd done left
  | @passes t used rest offset owed n owed' scan h left on ih =>
    have single : Single owed.length (t :: used) := Single.of_scan h
    obtain ⟨done, _⟩ | ⟨levels', _, stands'⟩ := stands.ends here single
    · rw [left] at done
      cases done
    · rw [left] at stands'
      exact (ih (drop_onward here) stands').of_le (by omega)

end

namespace Parser
variable {p q : Parser} {levels : List Level} {bs chunk : Bytes}

theorem Stands.lands (stands : p.Stands levels) : Lands p.buffer p.offset p.scan :=
  (course_run _ _ _).lands rfl stands

/-- what is a frame to the scan is a value, and nothing else is -/
theorem scan_eq_frame_iff {n : Nat} :
    (holding bs).scan = .frame n ↔ n ≤ bs.length ∧ Framed 0 (bs.take n) := by
  constructor
  · intro scan
    have lands := (stands_holding bs).lands
    rw [scan] at lands
    cases lands with
    | frame within value => exact ⟨within, value⟩
  · rintro ⟨within, value⟩
    have run := value.settles [] (bs.drop n) 0 rfl
    rw [List.take_append_drop, List.length_take, Nat.min_eq_left within, Nat.zero_add] at run
    show Scan.run bs 0 0 [] = _
    rw [run, ended, Nat.add_sub_cancel]
    rfl

/-! ## parsers -/

theorem Stands.arrived (stands : p.Stands levels) (chunk : Bytes) :
    (p.arrived chunk).Stands levels where
  nested := stands.nested
  within := by
    show p.offset ≤ (p.buffer ++ chunk).length
    rw [List.length_append]
    exact Nat.le_add_right_of_le stands.within
  spelt := by
    show (p.buffer ++ chunk).take p.offset = _
    rw [List.take_append_of_le_length stands.within]
    exact stands.spelt
  owed := stands.owed

theorem stands_of (bs : Bytes) : ∃ levels, (Fed.of bs).parser.Stands levels := by
  induction size : bs.length using Nat.strongRecOn generalizing bs with
  | ind n ih =>
    have lands := (stands_holding bs).lands
    cases scan : (holding bs).scan with
    | frame length =>
      obtain ⟨some, fits, _⟩ := scan_frame scan
      rw [Fed.of_frame scan, Fed.round]
      split
      · refine ih _ ?_ _ rfl
        rw [List.length_drop]
        omega
      · exact ⟨[], stands_holding bs⟩
      · exact ⟨[], stands_holding bs⟩
    | pending offset owed =>
      rw [Fed.of_pending scan]
      rw [scan] at lands
      cases lands with
      | pending _ stands => exact ⟨_, stands⟩
    | fault why offset owed =>
      rw [Fed.of_fault scan]
      rw [scan] at lands
      cases lands with
      | fault _ stands => exact ⟨_, stands⟩

theorem Reachable.stands (reached : p.Reachable) : ∃ levels, p.Stands levels := by
  cases reached with
  | fresh => exact ⟨[], stands_holding []⟩
  | feed reached chunk =>
    rw [Fed.feed_of_resumes reached.resumes]
    exact stands_of _
  | reset => exact ⟨[], stands_holding []⟩

/-- so do the parsers that a feed makes on its way -/
theorem Rounds.stands (round : Rounds (p.arrived chunk) q) (stands : p.Stands levels) :
    ∃ levels, q.Stands levels := by
  cases round with
  | first => exact ⟨levels, stands.arrived chunk⟩
  | next => exact ⟨[], stands_holding _⟩

/-- a feed that delivers nothing and fails at nothing only goes on -/
theorem Stands.offset_le_feed (stands : p.Stands levels) (nothing : (p.feed chunk).replies = [])
    (sound : (p.feed chunk).fault = none) : p.offset ≤ (p.feed chunk).parser.offset := by
  have lands := (stands.arrived chunk).lands
  change (drain _ (p.arrived chunk)).replies = [] at nothing
  change (drain _ (p.arrived chunk)).fault = none at sound
  show p.offset ≤ (drain _ (p.arrived chunk)).parser.offset
  cases scan : (p.arrived chunk).scan with
  | frame n =>
    rw [Fed.drain_frame scan] at nothing sound
    by_cases read : ∃ reply, Reply.decode ((p.arrived chunk).buffer.take n) = .complete (reply, [])
    · obtain ⟨reply, read⟩ := read
      rw [Fed.round_of_read read] at nothing
      cases nothing
    · obtain ⟨why, stuck⟩ := Fed.round_of_unread (not_exists.mp read)
      rw [stuck] at sound
      cases sound
  | pending offset owed =>
    rw [drain, scan]
    rw [scan] at lands
    cases lands with
    | pending onward => exact onward
  | fault why offset owed =>
    rw [drain, scan] at sound
    cases sound

theorem Reachable.offset_le_feedOn (reached : p.Reachable) {chunks : List Bytes}
    (nothing : (p.feedOn chunks).replies = []) (sound : (p.feedOn chunks).fault = none) :
    p.offset ≤ (p.feedOn chunks).parser.offset := by
  by_cases none : chunks = []
  · subst none
    exact Nat.le_refl _
  · rw [feedOn_eq_feed reached none] at nothing sound ⊢
    obtain ⟨levels, stands⟩ := reached.stands
    exact stands.offset_le_feed nothing sound

end Parser

/-! ## the scan as a loop -/

/-- counts one finished element as `settle` does; none if a count would fall below zero -/
def settle? : List Nat → Option (List Nat)
  | [] => some []
  | n :: rest =>
    if n = 0 then none
    else if 0 < n - 1 then some ((n - 1) :: rest)
    else settle? rest

/-- what one lap of the loop comes to -/
inductive Lap where
  | on (offset : Nat) (owed : List Nat)
  | over (scan : Scan)
  /-- a count would have fallen below zero -/
  | underflow
deriving DecidableEq, Repr

/-- one element -/
def lap (bs : Bytes) (offset : Nat) (owed : List Nat) : Lap :=
  match bs.drop offset with
  | [] => .over (.pending offset owed)
  | t :: body =>
    match Element.scan owed.length t body with
    | .incomplete => .over (.pending offset owed)
    | .malformed why => .over (.fault why offset owed)
    | .complete (.opens count more) => .on (offset + 1 + more) (count :: owed)
    | .complete (.whole more) =>
      match settle? owed with
      | none => .underflow
      | some [] => .over (.frame (offset + 1 + more))
      | some (n :: rest) => .on (offset + 1 + more) (n :: rest)

/-- at most so many laps -/
def laps (bs : Bytes) : Nat → Nat → List Nat → Lap
  | 0, offset, owed => .on offset owed
  | n + 1, offset, owed =>
    match lap bs offset owed with
    | .on offset owed => laps bs n offset owed
    | last => last

section
variable {bs used rest : Bytes} {t : UInt8} {offset : Nat} {owed : List Nat}

theorem settle?_of_pos (pos : ∀ n ∈ owed, 0 < n) : settle? owed = some (settle owed) := by
  induction owed with
  | nil => rfl
  | cons n rest ih =>
    obtain ⟨some, others⟩ := List.forall_mem_cons.mp pos
    rw [settle?, settle, if_neg (Nat.ne_of_gt some)]
    split
    · rw [if_pos (by omega)]
    · rw [if_neg (by omega)]
      exact ih others

theorem settle_pos (pos : ∀ n ∈ owed, 0 < n) : ∀ n ∈ settle owed, 0 < n := by
  induction owed with
  | nil => exact pos
  | cons n rest ih =>
    obtain ⟨some, others⟩ := List.forall_mem_cons.mp pos
    rw [settle]
    split
    · rw [List.forall_mem_cons]
      exact ⟨by omega, others⟩
    · exact ih others

theorem laps_of_on {n offset' : Nat} {owed' : List Nat}
    (h : lap bs offset owed = .on offset' owed') :
    laps bs (n + 1) offset owed = laps bs n offset' owed' := by
  rw [laps, h]

theorem laps_of_over {n : Nat} {scan : Scan} (h : lap bs offset owed = .over scan) :
    laps bs (n + 1) offset owed = .over scan := by
  rw [laps, h]

theorem lap_opens {count : Nat} (here : bs.drop offset = t :: (used ++ rest))
    (h : ∀ more, Element.scan owed.length t (used ++ more) = .complete (.opens count used.length)) :
    lap bs offset owed = .on (offset + 1 + used.length) (count :: owed) := by
  rw [lap, here]
  dsimp only
  rw [h]

theorem lap_whole (pos : ∀ n ∈ owed, 0 < n) (here : bs.drop offset = t :: (used ++ rest))
    (h : ∀ more, Element.scan owed.length t (used ++ more) = .complete (.whole used.length)) :
    lap bs offset owed =
      match settle owed with
      | [] => .over (.frame (offset + 1 + used.length))
      | n :: owed' => .on (offset + 1 + used.length) (n :: owed') := by
  rw [lap, here]
  dsimp only
  rw [h, settle?_of_pos pos]
  cases settle owed <;> rfl

/-- a lap takes a byte at least -/
theorem exists_fewer {n : Nat} (enough : (t :: (used ++ rest)).length ≤ n) :
    ∃ k, n = k + 1 ∧ rest.length ≤ k := by
  rw [List.length_cons, List.length_append] at enough
  exact ⟨n - 1, by omega, by omega⟩

/-- where no count is empty the scan is the loop, and the loop ends -/
theorem Course.laps_eq {scan : Scan} (h : Course rest offset owed scan)
    (here : bs.drop offset = rest) (pos : ∀ n ∈ owed, 0 < n) {n : Nat} (enough : rest.length ≤ n) :
    laps bs (n + 1) offset owed = .over scan := by
  induction h generalizing n with
  | dry => exact laps_of_over (by rw [lap, here])
  | waits h => exact laps_of_over (by rw [lap, here]; dsimp only; rw [h])
  | faults h => exact laps_of_over (by rw [lap, here]; dsimp only; rw [h])
  | opens h on ih =>
    obtain ⟨n, rfl, fewer⟩ := exists_fewer enough
    rw [laps_of_on (lap_opens here h)]
    exact ih (drop_onward here) (List.forall_mem_cons.mpr ⟨(Heading.of_scan h).pos, pos⟩) fewer
  | closes h done =>
    have last := lap_whole pos here h
    rw [done] at last
    exact laps_of_over last
  | passes h left on ih =>
    obtain ⟨n, rfl, fewer⟩ := exists_fewer enough
    have next := lap_whole pos here h
    have pos' := settle_pos pos
    rw [left] at next pos'
    rw [laps_of_on next]
    exact ih (drop_onward here) pos' fewer

end

namespace Parser
variable {p : Parser} {levels : List Level}

/-- the loop over the bytes that are not scanned yet -/
theorem Stands.laps_eq (stands : p.Stands levels) :
    laps p.buffer (p.buffer.length - p.offset + 1) p.offset p.owed = .over p.scan := by
  have pos : ∀ n ∈ p.owed, 0 < n := by
    rw [stands.owed]
    exact stands.nested.pos
  exact (course_run _ p.offset p.owed).laps_eq rfl pos (Nat.le_of_eq List.length_drop)

/-! ## every parser -/

/-- what holds of the place of a parser, its arrays spelt one by one -/
structure Placed (p : Parser) : Prop where
  within : p.offset ≤ p.buffer.length
  counts : ∀ n ∈ p.owed, 1 ≤ n
  depth : p.owed.length ≤ 512
  levels : ∃ levels, Nested levels ∧ p.buffer.take p.offset = written levels ∧
    p.owed = levels.map Level.owed

theorem Stands.placed (stands : p.Stands levels) : p.Placed where
  within := stands.within
  counts := by
    rw [stands.owed]
    exact stands.nested.pos
  depth := by
    rw [stands.length_owed]
    exact stands.nested.length_le
  levels := ⟨levels, stands.nested, stands.spelt, stands.owed⟩

/-- **The place of a scan is a value that has arrived in part.**  In every parser that feeding and
resetting lead to, and in those that a feed of one makes on its way, the bytes before the place are
the headers of the open arrays, each with its elements that have ended, and each count is what is
missing from its array.  Feeds that deliver nothing and meet no fault never move the place back.
The loop of the scan ends within a lap for each byte behind the place and one more, as the scan
does, and no count falls below zero on the way. -/
theorem scan_placed (reached : p.Reachable) :
    p.Placed ∧
    (∀ chunks : List Bytes, (p.feedOn chunks).replies = [] → (p.feedOn chunks).fault = none →
      p.offset ≤ (p.feedOn chunks).parser.offset) ∧
    ∀ (chunk : Bytes) (q : Parser), Rounds (p.arrived chunk) q → q.Placed ∧
      laps q.buffer (q.buffer.length - q.offset + 1) q.offset q.owed = .over q.scan := by
  obtain ⟨levels, stands⟩ := reached.stands
  refine ⟨stands.placed, fun chunks nothing sound => reached.offset_le_feedOn nothing sound, ?_⟩
  intro chunk q round
  obtain ⟨levels', stands'⟩ := round.stands stands
  exact ⟨stands'.placed, stands'.laps_eq⟩

/-- three arrays, one inside the other, cut inside a bulk string that holds the end of a line: with
its last bytes the two inner ones end -/
theorem scan_placed_of_nested :
    let p := (empty.feed (Utf8.encode "*3\r\n:1\r\n*2\r\n*0\r\n*1\r\n$4\r\n\r\na")).parser
    let chunks : List Bytes := [[0x62], [0x0D]]
    let q := p.arrived [0x62, 0x0D, 0x0A]
    (p.Reachable ∧ p.offset = 20 ∧ p.owed = [1, 1, 2] ∧ p.Placed) ∧
      ((p.feedOn chunks).replies = [] ∧ (p.feedOn chunks).fault = none ∧
        p.offset ≤ (p.feedOn chunks).parser.offset) ∧
      Rounds q q ∧ q.Placed ∧ laps q.buffer 11 20 [1, 1, 2] = .over (.pending 30 [1]) := by
  intro p chunks q
  have reached : p.Reachable := Reachable.fresh.feed _
  have offset : p.offset = 20 := by decide +kernel
  have owed : p.owed = [1, 1, 2] := by decide +kernel
  have nothing : (p.feedOn chunks).replies = [] := by decide +kernel
  have sound : (p.feedOn chunks).fault = none := by decide +kernel
  have size : q.buffer.length - q.offset + 1 = 11 := by decide +kernel
  have scan : q.scan = .pending 30 [1] := by decide +kernel
  obtain ⟨placed, onward, rounds⟩ := scan_placed reached
  obtain ⟨placed', loop⟩ := rounds [0x62, 0x0D, 0x0A] q .first
  change laps q.buffer (q.buffer.length - q.offset + 1) p.offset p.owed = _ at loop
  rw [size, scan, offset, owed] at loop
  exact ⟨⟨reached, offset, owed, placed⟩, ⟨nothing, sound, onward chunks nothing sound⟩, .first,
    placed', loop⟩

end Parser
end RespLink
