import RespLink.Proofs.Lowering
import RespLink.Proofs.Pairings

/-!
# Sheets of server information

A sheet is written line by line: the entries at the top, then one section after another, with empty
lines behind each.  What is parsed out of the text is the sheet, whichever way each line ends and in
whatever case the names of the sections are shown.

* `Info.Ending`, `Info.written`   lines, each with the end that it has;
* `lines_written`     the lines of such a text;
* `Info.Sheet`        what is written, and the lines it is written in;
* `Info.Sheet.Sound`  no part of it looks like another;
* `foldl_entries`, `foldl_section`, `foldl_sections`   what each part does to the state;
* `Info.parse_written`  the text of a sound sheet.
-/

namespace RespLink

/-! ## new keys -/

namespace Fields
variable {α : Type} {fields : Fields α}

theorem insert_of_missing {key : String} (missing : key ∉ fields.keys) (value : α) :
    fields.insert key value = fields ++ [(key, value)] := by
  have last := insert_append missing value []
  rw [List.append_nil] at last
  exact last

theorem missing_of_nodup {pair : String × α} {more : List (String × α)}
    (distinct : (fields ++ pair :: more).keys.Nodup) : pair.1 ∉ fields.keys := by
  rw [keys, List.map_append, List.map_cons] at distinct
  exact fun again => (List.nodup_append.mp distinct).2.2 _ again _ List.mem_cons_self rfl

/-- pairs with new and distinct keys go to the end -/
theorem insertAll_of_nodup (pairs : List (String × α)) (distinct : (fields ++ pairs).keys.Nodup) :
    fields.insertAll pairs = fields ++ pairs := by
  induction pairs generalizing fields with
  | nil => exact (List.append_nil fields).symm
  | cons pair pairs ih =>
    have split : fields ++ pair :: pairs = fields ++ [pair] ++ pairs := by
      rw [List.append_assoc, List.singleton_append]
    show (fields.insert pair.1 pair.2).insertAll pairs = _
    rw [insert_of_missing (missing_of_nodup distinct)]
    rw [split] at distinct ⊢
    exact ih distinct

end Fields

namespace Info

/-! ## lines and their ends -/

/-- a line feed, with a carriage return before it or without -/
inductive Ending where
  | bare
  | returned
deriving DecidableEq, Repr

def Ending.returns : Ending → List Char
  | bare => []
  | returned => ['\r']

/-- lines, each with its end -/
def written (ended : List (List Char × Ending)) : List Char :=
  ended.flatMap fun (line, ending) => line ++ ending.returns ++ ['\n']

/-- no end of a line is inside the line, nor does it end in what could be part of one -/
structure Whole (line : List Char) : Prop where
  unbroken : '\n' ∉ line
  last : line.getLast? ≠ some '\r'

theorem linesFrom_line {line : List Char} (unbroken : '\n' ∉ line) (before rest : List Char) :
    linesFrom before (line ++ '\n' :: rest) = (before.reverse ++ line) :: linesFrom [] rest := by
  induction line generalizing before with
  | nil => rw [List.nil_append, linesFrom, if_pos rfl, List.append_nil]
  | cons c line ih =>
    obtain ⟨other, inside⟩ := not_or.mp fun h => unbroken (List.mem_cons.mpr h)
    rw [List.cons_append, linesFrom, if_neg (Ne.symm other), ih inside, List.reverse_cons,
      List.append_assoc, List.singleton_append]

theorem dropLastWhile_returns {line : List Char} (whole : Whole line) (ending : Ending) :
    Text.dropLastWhile (· == '\r') (line ++ ending.returns) = line := by
  have own : Text.dropLastWhile (· == '\r') line = line := by
    refine Text.dropLastWhile_of_last fun c back => ?_
    rw [beq_eq_false_iff_ne]
    rintro rfl
    exact whole.last back
  cases ending with
  | bare => rw [Ending.returns, List.append_nil, own]
  | returned => rw [Ending.returns, Text.dropLastWhile_concat rfl, own]

theorem lines_written {ended : List (List Char × Ending)} (whole : ∀ line ∈ ended.map Prod.fst, Whole line) :
    lines (written ended) = ended.map Prod.fst := by
  induction ended with
  | nil => rfl
  | cons first ended ih =>
    obtain ⟨line, ending⟩ := first
    have own : Whole line := whole line List.mem_cons_self
    have unbroken : '\n' ∉ line ++ ending.returns := by
      rw [List.mem_append, not_or]
      refine ⟨own.unbroken, ?_⟩
      cases ending <;> decide
    have others := ih fun line inside => whole line (List.mem_cons_of_mem _ inside)
    have split : written ((line, ending) :: ended) = line ++ ending.returns ++ '\n' :: written ended := by
      rw [written, List.flatMap_cons]
      exact List.append_assoc _ ['\n'] _
    rw [lines] at others
    rw [lines, split, linesFrom_line unbroken, List.reverse_nil, List.nil_append, List.map_cons,
      dropLastWhile_returns own, others]
    rfl

/-! ## sheets -/

structure Section where
  name : String
  /-- the name as its line shows it, in any case -/
  title : String
  entries : List (String × String)
  /-- the number of empty lines behind the first one -/
  gap : Nat
deriving DecidableEq, Repr

structure Sheet where
  entries : List (String × String)
  sections : List Section
deriving DecidableEq, Repr

def entryLine (entry : String × String) : List Char := entry.1.toList ++ ':' :: entry.2.toList

def field (entry : String × String) : String × Value := (entry.1, .text entry.2)

namespace Section

def titleLine (s : Section) : List Char := '#' :: ' ' :: s.title.toList

def lines (s : Section) : List (List Char) :=
  s.titleLine :: s.entries.map entryLine ++ List.replicate (s.gap + 1) []

def field (s : Section) : String × Value := (s.name, .map (s.entries.map Info.field))

end Section

namespace Sheet

def lines (d : Sheet) : List (List Char) := d.entries.map entryLine ++ d.sections.flatMap Section.lines

/-- the sheet as nested maps -/
def fields (d : Sheet) : Fields Value := d.entries.map Info.field ++ d.sections.map Section.field

end Sheet

/-- the key shows where it ends and does not look like a title; the value is the rest of a line -/
structure PlainEntry (entry : String × String) : Prop where
  colon : ':' ∉ entry.1.toList
  hash : entry.1.toList.head? ≠ some '#'
  key : '\n' ∉ entry.1.toList
  value : Whole entry.2.toList

structure Section.Sound (s : Section) : Prop where
  distinct : (s.entries.map Prod.fst).Nodup
  entries : ∀ entry ∈ s.entries, PlainEntry entry
  unbroken : '\n' ∉ s.name.toList
  own : Text.lowercase (Text.trim s.name.toList) = s.name.toList
  title : Text.lowercase s.title.toList = s.name.toList

structure Sheet.Sound (d : Sheet) : Prop where
  /-- the keys at the top and the names of the sections, all of them together -/
  distinct : (d.entries.map Prod.fst ++ d.sections.map Section.name).Nodup
  entries : ∀ entry ∈ d.entries, PlainEntry entry
  sections : ∀ s ∈ d.sections, s.Sound

/-! ### soundness is decided -/

instance (line : List Char) : Decidable (Whole line) :=
  decidable_of_iff ('\n' ∉ line ∧ line.getLast? ≠ some '\r')
    ⟨fun h => ⟨h.1, h.2⟩, fun h => ⟨h.unbroken, h.last⟩⟩

instance (entry : String × String) : Decidable (PlainEntry entry) :=
  decidable_of_iff
    (':' ∉ entry.1.toList ∧ entry.1.toList.head? ≠ some '#' ∧ '\n' ∉ entry.1.toList ∧
      Whole entry.2.toList)
    ⟨fun h => ⟨h.1, h.2.1, h.2.2.1, h.2.2.2⟩, fun h => ⟨h.colon, h.hash, h.key, h.value⟩⟩

instance (s : Section) : Decidable s.Sound :=
  decidable_of_iff
    ((s.entries.map Prod.fst).Nodup ∧ (∀ entry ∈ s.entries, PlainEntry entry) ∧
      '\n' ∉ s.name.toList ∧ Text.lowercase (Text.trim s.name.toList) = s.name.toList ∧
      Text.lowercase s.title.toList = s.name.toList)
    ⟨fun h => ⟨h.1, h.2.1, h.2.2.1, h.2.2.2.1, h.2.2.2.2⟩,
      fun h => ⟨h.distinct, h.entries, h.unbroken, h.own, h.title⟩⟩

instance (d : Sheet) : Decidable d.Sound :=
  decidable_of_iff
    ((d.entries.map Prod.fst ++ d.sections.map Section.name).Nodup ∧
      (∀ entry ∈ d.entries, PlainEntry entry) ∧ ∀ s ∈ d.sections, s.Sound)
    ⟨fun h => ⟨h.1, h.2.1, h.2.2⟩, fun h => ⟨h.distinct, h.entries, h.sections⟩⟩

/-! ## the lines of a sound sheet -/

theorem whole_nil : Whole [] := ⟨List.not_mem_nil, by decide⟩

theorem PlainEntry.whole {entry : String × String} (plain : PlainEntry entry) :
    Whole (entryLine entry) where
  unbroken := by
    rw [entryLine, List.mem_append, List.mem_cons, not_or, not_or]
    exact ⟨plain.key, by decide, plain.value.unbroken⟩
  last := by
    rw [entryLine, List.getLast?_append, List.getLast?_cons]
    cases back : entry.2.toList.getLast? with
    | none => exact fun same => absurd (Option.some.inj same) (by decide)
    | some c =>
      have other := plain.value.last
      rw [back] at other
      exact other

theorem Section.Sound.trimmed {s : Section} (sound : s.Sound) : Text.Trimmed s.title.toList :=
  Text.trimmed_of_lowercase sound.own sound.title

theorem Section.Sound.whole_title {s : Section} (sound : s.Sound) : Whole s.titleLine where
  unbroken := by
    intro inside
    have named : '\n' ∈ s.title.toList := by
      simpa [Section.titleLine] using inside
    have kept := Text.mem_lowerFrom_of_blank (by decide) named []
    exact sound.unbroken (by rw [← sound.title]; exact kept)
  last := by
    rw [Section.titleLine, List.getLast?_cons_cons, List.getLast?_cons]
    cases back : s.title.toList.getLast? with
    | none => decide
    | some c =>
      rintro ⟨rfl⟩
      exact absurd (sound.trimmed.last '\r' back) (by decide)

theorem Section.Sound.whole {s : Section} (sound : s.Sound) : ∀ line ∈ s.lines, Whole line := by
  intro line inside
  rw [Section.lines, List.cons_append, List.mem_cons, List.mem_append] at inside
  obtain rfl | inside | inside := inside
  · exact sound.whole_title
  · obtain ⟨entry, member, rfl⟩ := List.mem_map.mp inside
    exact (sound.entries entry member).whole
  · rw [List.eq_of_mem_replicate inside]
    exact whole_nil

theorem Sheet.Sound.whole {d : Sheet} (sound : d.Sound) : ∀ line ∈ d.lines, Whole line := by
  intro line inside
  obtain inside | inside := List.mem_append.mp inside
  · obtain ⟨entry, member, rfl⟩ := List.mem_map.mp inside
    exact (sound.entries entry member).whole
  · obtain ⟨s, member, inside⟩ := List.mem_flatMap.mp inside
    exact (sound.sections s member).whole line inside

/-! ## what each line does -/

theorem line_entry {entry : String × String} (plain : PlainEntry entry) (s : State) :
    s.line (entryLine entry) = s.entry entry.1 (.text entry.2) := by
  have split : splitOnce ':' (entryLine entry) = some (entry.1.toList, entry.2.toList) :=
    (splitOnce_eq_some_iff ':' _ _ _).mpr ⟨rfl, plain.colon⟩
  have other : (entryLine entry).head? ≠ some '#' := by
    have hash := plain.hash
    rw [entryLine, List.head?_append]
    cases front : entry.1.toList.head? with
    | none => exact fun same => absurd (Option.some.inj same) (by decide)
    | some c =>
      rw [front] at hash
      exact hash
  cases line : entryLine entry with
  | nil =>
    rw [line] at split
    cases split
  | cons c rest =>
    rw [line] at split other
    rw [State.line, if_neg fun same => other (by rw [same]; rfl), split]
    simp only [String.ofList_toList]

theorem line_title {s : Section} (sound : s.Sound) (fields : Fields Value) (open? : Option String) :
    State.line ⟨fields, open?⟩ s.titleLine = ⟨fields.insert s.name (.map []), some s.name⟩ := by
  have spaced : Text.trim (' ' :: s.title.toList) = s.title.toList :=
    Text.trim_of_trimmed sound.trimmed
  have name : String.ofList (Text.lowercase (Text.trim (' ' :: s.title.toList))) = s.name := by
    rw [spaced, sound.title, String.ofList_toList]
  rw [Section.titleLine, State.line, if_pos rfl, name]

theorem foldl_blank (n : Nat) (s : State) :
    (List.replicate (n + 1) []).foldl State.line s = ⟨s.fields, none⟩ := by
  induction n generalizing s with
  | zero => rfl
  | succ n ih =>
    rw [List.replicate_succ, List.foldl_cons]
    exact ih _

/-- entries are written one after another to the place that takes them -/
theorem foldl_entries {entries : List (String × String)}
    (plain : ∀ entry ∈ entries, PlainEntry entry) {state : Fields Value → State}
    (takes : ∀ held key value, (state held).entry key value = state (Fields.insert key value held))
    (held : Fields Value) :
    (entries.map entryLine).foldl State.line (state held) =
      state (held.insertAll (entries.map field)) := by
  induction entries generalizing held with
  | nil => rfl
  | cons entry entries ih =>
    rw [List.map_cons, List.foldl_cons, line_entry (plain entry List.mem_cons_self), takes]
    exact ih (fun other inside => plain other (List.mem_cons_of_mem _ inside)) _

/-- while no section is open, the top takes an entry -/
theorem entry_top (fields : Fields Value) (key : String) (value : Value) :
    State.entry ⟨fields, none⟩ key value = ⟨fields.insert key value, none⟩ := rfl

/-- while a section is open, its map does -/
theorem entry_open {fields : Fields Value} {name : String} (missing : name ∉ fields.keys)
    (held : Fields Value) (key : String) (value : Value) :
    State.entry ⟨fields ++ [(name, .map held)], some name⟩ key value =
      ⟨fields ++ [(name, .map (held.insert key value))], some name⟩ := by
  have found : Fields.get? name (fields ++ [(name, Value.map held)]) = some (.map held) := by
    rw [Fields.get?_append missing, Fields.get?, if_pos rfl]
  rw [State.entry, Option.bind_some, found, Option.map_some]
  dsimp only
  rw [Fields.insert_append missing, Fields.insert, if_pos rfl]

theorem foldl_section {s : Section} (sound : s.Sound) {fields : Fields Value}
    (missing : s.name ∉ fields.keys) (open? : Option String) :
    s.lines.foldl State.line ⟨fields, open?⟩ = ⟨fields ++ [s.field], none⟩ := by
  have opened : fields.insert s.name (.map []) = fields ++ [(s.name, .map [])] :=
    Fields.insert_of_missing missing _
  have held : Fields.insertAll [] (s.entries.map field) = s.entries.map field := by
    refine Fields.insertAll_of_nodup _ ?_
    rw [List.nil_append, Fields.keys, List.map_map]
    exact sound.distinct
  rw [Section.lines, List.cons_append, List.foldl_cons, line_title sound, opened, List.foldl_append,
    foldl_entries sound.entries (entry_open missing), held, foldl_blank]
  rfl

theorem foldl_sections {sections : List Section} (sound : ∀ s ∈ sections, s.Sound) {fields : Fields Value}
    (distinct : (fields ++ sections.map Section.field).keys.Nodup) :
    (sections.flatMap Section.lines).foldl State.line ⟨fields, none⟩ =
      ⟨fields ++ sections.map Section.field, none⟩ := by
  induction sections generalizing fields with
  | nil =>
    rw [List.map_nil, List.append_nil]
    rfl
  | cons s sections ih =>
    have missing : s.field.1 ∉ fields.keys := Fields.missing_of_nodup distinct
    have split : fields ++ (s :: sections).map Section.field =
        (fields ++ [s.field]) ++ sections.map Section.field := by
      rw [List.append_assoc]
      rfl
    rw [split] at distinct ⊢
    rw [List.flatMap_cons, List.foldl_append, foldl_section (sound s List.mem_cons_self) missing]
    exact ih (fun other inside => sound other (List.mem_cons_of_mem _ inside)) distinct

/-- **A sheet is parsed out of its text.**  Whichever way its lines end, a sound sheet comes back as
its nested maps: the entries at the top, and under the name of each section the entries of it. -/
theorem parse_written {d : Sheet} (sound : d.Sound) {ended : List (List Char × Ending)}
    (lines : ended.map Prod.fst = d.lines) : parse (String.ofList (written ended)) = d.fields := by
  have keys : d.fields.keys.Nodup := by
    have names : d.fields.keys = d.entries.map Prod.fst ++ d.sections.map Section.name := by
      rw [Sheet.fields, Fields.keys, List.map_append, List.map_map, List.map_map]
      rfl
    rw [names]
    exact sound.distinct
  have read : Info.lines (written ended) = d.lines := by
    rw [lines_written (by rw [lines]; exact sound.whole), lines]
  have top : Fields.insertAll [] (d.entries.map field) = d.entries.map field := by
    refine Fields.insertAll_of_nodup _ ?_
    rw [Sheet.fields, Fields.keys, List.map_append] at keys
    exact (List.nodup_append.mp keys).1
  rw [parse, String.toList_ofList, read, Sheet.lines, List.foldl_append, State.start,
    foldl_entries sound.entries entry_top, top, foldl_sections sound.sections keys]
  rfl

/-- a value with a colon, a name whose last letter has a form of its own, a section without name and
entries, and both ends of lines -/
theorem parse_written_of_two_sections :
    let d : Sheet := ⟨[("role", "master"), ("replid", "ab:cd")],
      [⟨"ος", "ΟΣ", [("os", "linux")], 1⟩, ⟨"", "", [], 0⟩]⟩
    let ended := d.lines.zip
      [.bare, .returned, .bare, .returned, .bare, .returned, .bare, .returned]
    let text := "role:master\nreplid:ab:cd\r\n# ΟΣ\nos:linux\r\n\n\r\n# \n\r\n"
    (d.Sound ∧ ended.map Prod.fst = d.lines) ∧ String.ofList (written ended) = text ∧
    parse text = [("role", .text "master"), ("replid", .text "ab:cd"),
      ("ος", .map [("os", .text "linux")]), ("", .map [])] := by
  intro d ended text
  have sound : d.Sound := by decide +kernel
  have lines : ended.map Prod.fst = d.lines := by decide +kernel
  have same : String.ofList (written ended) = text := by decide +kernel
  refine ⟨⟨sound, lines⟩, same, ?_⟩
  rw [← same, parse_written sound lines]
  rfl

end Info
end RespLink
