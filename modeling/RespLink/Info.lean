import RespLink.Text.Blank
import RespLink.Text.Lowercase
import RespLink.Text.Split
import RespLink.Value

/-!
# Server information

The text of an INFO reply as nested maps.  A line that starts with `#` opens a section, stored
under its name in lower case; a line with a colon is an entry of the open section, or of the top
level when none is open; an empty line closes the section; any other line says nothing.

* `lines`       the lines of a text, without the carriage returns at their ends;
* `Info.State`  the fields read so far and the name of the open section;
* `Info.parse`  all lines in turn.
-/

namespace RespLink

namespace Info

/-- a text cut after each line feed; `line` holds the characters of the current line, last first -/
def linesFrom (line : List Char) : List Char → List (List Char)
  | [] => if line.isEmpty then [] else [line.reverse]
  | c :: rest => if c = '\n' then line.reverse :: linesFrom [] rest else linesFrom (c :: line) rest

def lines (text : List Char) : List (List Char) :=
  (linesFrom [] text).map (Text.dropLastWhile (· == '\r'))

structure State where
  fields : Fields Value
  open? : Option String

def State.start : State := ⟨[], none⟩

/-- an entry goes to the open section if a map stands under its name, else to the top level -/
def State.entry (s : State) (key : String) (value : Value) : State :=
  match s.open?.bind fun name => (s.fields.get? name).map fun v => (name, v) with
  | some (name, .map fields) =>
    { s with fields := s.fields.insert name (.map (Fields.insert key value fields)) }
  | _ => { s with fields := s.fields.insert key value }

def State.line (s : State) : List Char → State
  | [] => { s with open? := none }
  | c :: rest =>
    if c = '#' then
      let name := String.ofList (Text.lowercase (Text.trim rest))
      ⟨s.fields.insert name (.map []), some name⟩
    else match splitOnce ':' (c :: rest) with
      | some (key, value) => s.entry (String.ofList key) (.text (String.ofList value))
      | none => s

def parse (text : String) : Fields Value :=
  ((lines text.toList).foldl State.line State.start).fields

end Info
end RespLink
