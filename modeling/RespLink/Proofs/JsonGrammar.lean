import RespLink.Json

/-!
# The grammar of JSON

The texts of a value, apart from any reader.  Blanks may stand around the tokens, a character of a
string literal may be escaped in several ways, and a number is written without leading zeros.

* `NumberText`       a number, in its parts;
* `CharText`, `StringText`   a character of a string literal and how it may be spelt, and all of
                     them;
* `Slot`, `Entry`    an item of an array and a member of an object with the blanks around them;
* `TextOf`           a value and a text of it;
* `Documented`       what is known of a printer and a reader of JSON: the one writes a text of the
                     value, the other reads every text of it;
* `textOf_print`     the printer writes a text of every plain value.
-/

namespace RespLink.Json

/-! ## numbers -/

def Digits (cs : List Char) : Prop := cs ≠ [] ∧ ∀ c ∈ cs, isDigit c = true

/-- no zero leads a whole number, but for zero itself -/
def Whole (cs : List Char) : Prop := Digits cs ∧ (cs.head? = some '0' → cs = ['0'])

inductive Fraction : List Char → Prop
  | absent : Fraction []
  | present {ds} (digits : Digits ds) : Fraction ('.' :: ds)

inductive Exponent : List Char → Prop
  | absent : Exponent []
  | present {e sign ds} (letter : e = 'e' ∨ e = 'E') (signed : sign ∈ [[], ['+'], ['-']])
    (digits : Digits ds) : Exponent (e :: (sign ++ ds))

inductive NumberText : List Char → Prop
  | intro {sign whole fraction exponent} (signed : sign ∈ [[], ['-']]) (isWhole : Whole whole)
    (isFraction : Fraction fraction) (isExponent : Exponent exponent) :
    NumberText (sign ++ (whole ++ (fraction ++ exponent)))

/-! ## string literals -/

/-- four hexadecimal digits and the 16-bit unit that they denote -/
inductive UnitText : List Char → Nat → Prop
  | intro {a b c d i j k l} (first : hexValue? a = some i) (second : hexValue? b = some j)
    (third : hexValue? c = some k) (fourth : hexValue? d = some l) :
    UnitText [a, b, c, d] (((i * 16 + j) * 16 + k) * 16 + l)

/-- a character and how it may stand in a string literal -/
inductive CharText : Char → List Char → Prop
  | plain {c} (quote : c ≠ '"') (backslash : c ≠ '\\') (printed : ¬ c.toNat < 0x20) : CharText c [c]
  | named {c e} (name : named? e = some c) : CharText c ['\\', e]
  | unit {hex u} (spelt : UnitText hex u) (whole : isHigh u = false ∧ isLow u = false) :
    CharText (Char.ofNat u) ('\\' :: 'u' :: hex)
  /-- the two halves of a surrogate pair -/
  | pair {hex hex' u v} (spelt : UnitText hex u) (spelt' : UnitText hex' v) (high : isHigh u = true)
    (low : isLow v = true) :
    CharText (Char.ofNat (0x10000 + (u - 0xD800) * 0x400 + (v - 0xDC00)))
      ('\\' :: 'u' :: (hex ++ '\\' :: 'u' :: hex'))

/-- a text and what may stand for it between the quotes -/
inductive StringText : List Char → List Char → Prop
  | nil : StringText [] []
  | cons {c spelling text body} (first : CharText c spelling) (others : StringText text body) :
    StringText (c :: text) (spelling ++ body)

/-! ## values -/

def Blanks (cs : List Char) : Prop := ∀ c ∈ cs, isBlank c = true

theorem blanks_nil : Blanks [] := fun _ member => nomatch member

/-- parts with commas between them -/
def commas : List (List Char) → List Char
  | [] => []
  | [part] => part
  | part :: next :: rest => part ++ ',' :: commas (next :: rest)

/-- an item of an array, with the blanks around its text -/
structure Slot where
  value : Json
  before : List Char
  text : List Char
  after : List Char

namespace Slot

def whole (s : Slot) : List Char := s.before ++ (s.text ++ s.after)

def Airy (s : Slot) : Prop := Blanks s.before ∧ Blanks s.after

end Slot

/-- a member of an object, with the blanks before its key and before its colon -/
structure Entry where
  key : List Char
  before : List Char
  name : List Char
  after : List Char
  slot : Slot

namespace Entry

def member (e : Entry) : Option (List Char) × Json := (some e.key, e.slot.value)

def whole (e : Entry) : List Char :=
  e.before ++ '"' :: (e.name ++ '"' :: (e.after ++ ':' :: e.slot.whole))

def Airy (e : Entry) : Prop := Blanks e.before ∧ Blanks e.after ∧ e.slot.Airy

end Entry

/-- a value and a text of it -/
inductive TextOf : Json → List Char → Prop
  | null : TextOf null "null".toList
  | bool (b : Bool) : TextOf (bool b) (if b then "true".toList else "false".toList)
  | number {literal} (form : NumberText literal) : TextOf (number literal) literal
  | string {text body} (spelt : StringText text body) :
    TextOf (string text) ('"' :: (body ++ ['"']))
  | array {blanks} {slots : List Slot} (blank : Blanks blanks) (airy : ∀ s ∈ slots, s.Airy)
    (each : ∀ s ∈ slots, TextOf s.value s.text) :
    TextOf (array (slots.map Slot.value))
      ('[' :: (blanks ++ (commas (slots.map Slot.whole) ++ [']'])))
  | object {blanks} {entries : List Entry} (blank : Blanks blanks) (airy : ∀ e ∈ entries, e.Airy)
    (named : ∀ e ∈ entries, StringText e.key e.name)
    (each : ∀ e ∈ entries, TextOf e.slot.value e.slot.text) :
    TextOf (object (entries.map Entry.member))
      ('\x7b' :: (blanks ++ (commas (entries.map Entry.whole) ++ ['\x7d'])))

/-- half of a surrogate pair is nowhere in it, and its numbers are numbers -/
inductive Plain : Json → Prop
  | null : Plain null
  | bool (b : Bool) : Plain (bool b)
  | number {literal : List Char} (form : NumberText literal) : Plain (number literal)
  | string (text : List Char) : Plain (string text)
  | array {items : List Json} (each : ∀ item ∈ items, Plain item) : Plain (array items)
  | object {members : List (Option (List Char) × Json)}
    (named : ∀ member ∈ members, member.1 ≠ none) (each : ∀ member ∈ members, Plain member.2) :
    Plain (object members)

/-- what is known of a printer and a reader -/
structure Documented (print : Json → List Char) (parse? : List Char → Option Json) : Prop where
  /-- a plain value is printed as a text of it -/
  prints {value : Json} (plain : value.Plain) : TextOf value (print value)
  /-- every text of a value is read as the value, with blanks around it or without -/
  parses {value : Json} {text before after : List Char} (is : TextOf value text)
    (blank : Blanks before) (blank' : Blanks after) :
    parse? (before ++ (text ++ after)) = some value

/-- what is printed is read back -/
theorem Documented.parse_print {print : Json → List Char} {parse? : List Char → Option Json}
    (h : Documented print parse?) {value : Json} (plain : value.Plain) :
    parse? (print value) = some value := by
  have read := h.parses (h.prints plain) blanks_nil blanks_nil
  rw [List.nil_append, List.append_nil] at read
  exact read

/-! ## printing -/

theorem unitText_control {n : Nat} (control : n < 0x20) :
    UnitText ['0', '0', hexDigit (n / 16), hexDigit n] n := by
  have each : ∀ d : Fin 16, hexValue? (Nat.digitChar d.val) = some d.val := by decide
  have digit (n : Nat) : hexValue? (hexDigit n) = some (n % 16) :=
    each ⟨n % 16, Nat.mod_lt n (by decide)⟩
  have zero : hexValue? '0' = some 0 := by decide
  have value : ((0 * 16 + 0) * 16 + n / 16 % 16) * 16 + n % 16 = n := by omega
  have spelt := UnitText.intro zero zero (digit (n / 16)) (digit n)
  rw [value] at spelt
  exact spelt

theorem charText_escape (c : Char) : CharText c (escape c) := by
  by_cases named : c ∈ ['"', '\\', '\x08', '\x0c', '\n', '\r', '\t']
  · simp only [List.mem_cons, List.not_mem_nil, or_false] at named
    obtain rfl | rfl | rfl | rfl | rfl | rfl | rfl := named <;> exact .named (by decide)
  obtain ⟨quote, backslash, back, page, line, ret, tab⟩ : c ≠ '"' ∧ c ≠ '\\' ∧ c ≠ '\x08' ∧
      c ≠ '\x0c' ∧ c ≠ '\n' ∧ c ≠ '\r' ∧ c ≠ '\t' := by
    simpa only [List.mem_cons, List.not_mem_nil, or_false, not_or] using named
  rw [escape, if_neg quote, if_neg backslash, if_neg back, if_neg page, if_neg line, if_neg ret,
    if_neg tab]
  split
  · next control =>
    have whole : isHigh c.toNat = false ∧ isLow c.toNat = false := by
      constructor <;> refine decide_eq_false ?_ <;> omega
    have unit := CharText.unit (unitText_control control) whole
    rw [Char.ofNat_toNat] at unit
    exact unit
  · next printed => exact .plain quote backslash printed

theorem stringText_escape (text : List Char) : StringText text (text.flatMap escape) := by
  induction text with
  | nil => exact .nil
  | cons c text ih => exact .cons (charText_escape c) ih

theorem printItems_eq (items : List Json) : printItems items = commas (items.map print) := by
  induction items with
  | nil => rfl
  | cons item items ih =>
    cases items with
    | nil => rfl
    | cons next items =>
      rw [printItems, ih, List.append_assoc]
      rfl

/-- a member as it is printed -/
def printMember (member : Option (List Char) × Json) : List Char :=
  printKey member.1 ++ ':' :: print member.2

theorem printMembers_eq (members : List (Option (List Char) × Json)) :
    printMembers members = commas (members.map printMember) := by
  induction members with
  | nil => rfl
  | cons member members ih =>
    cases members with
    | nil =>
      rw [printMembers, List.append_assoc]
      rfl
    | cons next members =>
      rw [printMembers, ih]
      simp [commas, printMember]

/-- nothing but the value is printed -/
def Slot.ofValue (value : Json) : Slot := ⟨value, [], print value, []⟩

theorem Slot.whole_ofValue (value : Json) : (ofValue value).whole = print value :=
  List.append_nil _

theorem Slot.airy_ofValue (value : Json) : (ofValue value).Airy := ⟨blanks_nil, blanks_nil⟩

def Entry.ofMember (key : List Char) (value : Json) : Entry :=
  ⟨key, [], key.flatMap escape, [], .ofValue value⟩

theorem Entry.whole_ofMember (key : List Char) (value : Json) :
    (ofMember key value).whole = printMember (some key, value) := by
  simp [whole, ofMember, Slot.whole_ofValue, printMember, printKey, printText]

theorem Entry.airy_ofMember (key : List Char) (value : Json) : (ofMember key value).Airy :=
  ⟨blanks_nil, blanks_nil, Slot.airy_ofValue value⟩

theorem textOf_array {items : List Json} (each : ∀ item ∈ items, TextOf item item.print) :
    TextOf (array items) (array items).print := by
  have values : (items.map Slot.ofValue).map Slot.value = items := by
    rw [List.map_map]
    exact List.map_id _
  have wholes : (items.map Slot.ofValue).map Slot.whole = items.map print := by
    rw [List.map_map]
    exact List.map_congr_left fun item _ => Slot.whole_ofValue item
  have text := TextOf.array blanks_nil
    (List.forall_mem_map.mpr fun item (_ : item ∈ items) => Slot.airy_ofValue item)
    (List.forall_mem_map.mpr each)
  rw [values, wholes, ← printItems_eq] at text
  exact text

theorem textOf_object {members : List (Option (List Char) × Json)}
    (named : ∀ member ∈ members, member.1 ≠ none)
    (each : ∀ member ∈ members, TextOf member.2 member.2.print) :
    TextOf (object members) (object members).print := by
  let entry (member : Option (List Char) × Json) : Entry :=
    .ofMember (member.1.getD []) member.2
  have same {member} (inside : member ∈ members) :
      (some (member.1.getD []), member.2) = member := by
    obtain ⟨key, is⟩ := Option.ne_none_iff_exists'.mp (named member inside)
    obtain ⟨key?, value⟩ := member
    cases is
    rfl
  have values : (members.map entry).map Entry.member = members := by
    rw [List.map_map]
    exact (List.map_congr_left fun _ inside => same inside).trans (List.map_id _)
  have wholes : (members.map entry).map Entry.whole = members.map printMember := by
    rw [List.map_map]
    refine List.map_congr_left fun member inside => (Entry.whole_ofMember _ _).trans ?_
    rw [same inside]
  have text := TextOf.object blanks_nil
    (List.forall_mem_map.mpr fun member (_ : member ∈ members) =>
      Entry.airy_ofMember (member.1.getD []) member.2)
    (List.forall_mem_map.mpr fun member _ => stringText_escape (member.1.getD []))
    (List.forall_mem_map.mpr each)
  rw [values, wholes, ← printMembers_eq] at text
  exact text

/-- **A plain value is printed as a text of it.** -/
theorem textOf_print {value : Json} (plain : value.Plain) : TextOf value value.print := by
  induction plain with
  | null => exact .null
  | bool b => exact .bool b
  | number form => exact .number form
  | string text => exact .string (stringText_escape text)
  | array _ ih => exact textOf_array ih
  | object named _ ih => exact textOf_object named ih

end RespLink.Json
