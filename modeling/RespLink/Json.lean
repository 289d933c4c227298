/-!
# JSON

* `Json`         a JSON value; an object keeps its members in order, repeated keys included;
* `Json.print`   compact text, everything that needs no escape as it is;
* `Json.parse?`  the value that a whole text denotes, blanks around it allowed.

A string literal may hold half of a surrogate pair.  It is then well-formed but no text, which is
`Json.unpaired` for a value and `none` for a key.
-/

namespace RespLink

inductive Json where
  | null
  | bool (b : Bool)
  /-- a number as it is written -/
  | number (literal : List Char)
  | string (text : List Char)
  | unpaired
  | array (items : List Json)
  | object (members : List (Option (List Char) × Json))
deriving Repr

namespace Json

def ofText (s : String) : Json := string s.toList

/-! ## printing -/

def hexDigit (n : Nat) : Char := Nat.digitChar (n % 16)

def escape (c : Char) : List Char :=
  if c = '"' then ['\\', '"']
  else if c = '\\' then ['\\', '\\']
  else if c = '\x08' then ['\\', 'b']
  else if c = '\x0c' then ['\\', 'f']
  else if c = '\n' then ['\\', 'n']
  else if c = '\r' then ['\\', 'r']
  else if c = '\t' then ['\\', 't']
  else if c.toNat < 0x20 then ['\\', 'u', '0', '0', hexDigit (c.toNat / 16), hexDigit c.toNat]
  else [c]

def printText (text : List Char) : List Char := ['"'] ++ text.flatMap escape ++ ['"']

def printUnpaired : List Char := "\"\\ud800\"".toList

def printKey : Option (List Char) → List Char
  | some key => printText key
  | none => printUnpaired

mutual

def print : Json → List Char
  | null => "null".toList
  | bool b => if b then "true".toList else "false".toList
  | number literal => literal
  | string text => printText text
  | unpaired => printUnpaired
  | array items => ['['] ++ printItems items ++ [']']
  | object members => ['\x7b'] ++ printMembers members ++ ['\x7d']

def printItems : List Json → List Char
  | [] => []
  | [item] => print item
  | item :: next :: rest => print item ++ [','] ++ printItems (next :: rest)

def printMembers : List (Option (List Char) × Json) → List Char
  | [] => []
  | [(key, value)] => printKey key ++ [':'] ++ print value
  | (key, value) :: next :: rest =>
    printKey key ++ [':'] ++ print value ++ [','] ++ printMembers (next :: rest)

end

/-! ## reading: blanks, numbers, strings -/

def isBlank (c : Char) : Bool := c == ' ' || c == '\n' || c == '\t' || c == '\r'

def skipBlank (cs : List Char) : List Char := cs.dropWhile isBlank

def isDigit (c : Char) : Bool := decide ('0' ≤ c ∧ c ≤ '9')

/-- at least one digit -/
def digits (cs : List Char) : Option (List Char × List Char) :=
  let ds := cs.takeWhile isDigit
  if ds.isEmpty then none else some (ds, cs.dropWhile isDigit)

/-- a whole number without leading zeros -/
def wholePart : List Char → Option (List Char × List Char)
  | '0' :: rest => some (['0'], rest)
  | cs => digits cs

def fractionPart : List Char → Option (List Char × List Char)
  | '.' :: rest => (digits rest).map fun (ds, rest) => ('.' :: ds, rest)
  | cs => some ([], cs)

def exponentPart : List Char → Option (List Char × List Char)
  | [] => some ([], [])
  | c :: rest =>
    if c = 'e' ∨ c = 'E' then
      match rest with
      | s :: after =>
        if s = '+' ∨ s = '-' then (digits after).map fun (ds, r) => (c :: s :: ds, r)
        else (digits rest).map fun (ds, r) => (c :: ds, r)
      | [] => none
    else some ([], c :: rest)

def unsignedNumber (cs : List Char) : Option (List Char × List Char) :=
  (wholePart cs).bind fun (whole, cs) =>
    (fractionPart cs).bind fun (fraction, cs) =>
      (exponentPart cs).map fun (exponent, cs) => (whole ++ fraction ++ exponent, cs)

def readNumber : List Char → Option (List Char × List Char)
  | '-' :: rest => (unsignedNumber rest).map fun (n, rest) => ('-' :: n, rest)
  | cs => unsignedNumber cs

def hexValue? (c : Char) : Option Nat :=
  if '0' ≤ c ∧ c ≤ '9' then some (c.toNat - '0'.toNat)
  else if 'a' ≤ c ∧ c ≤ 'f' then some (c.toNat - 'a'.toNat + 10)
  else if 'A' ≤ c ∧ c ≤ 'F' then some (c.toNat - 'A'.toNat + 10)
  else none

/-- four hexadecimal digits -/
def readUnit : List Char → Option (Nat × List Char)
  | a :: b :: c :: d :: rest =>
    match hexValue? a, hexValue? b, hexValue? c, hexValue? d with
    | some a, some b, some c, some d => some (((a * 16 + b) * 16 + c) * 16 + d, rest)
    | _, _, _, _ => none
  | _ => none

def isHigh (u : Nat) : Bool := decide (0xD800 ≤ u ∧ u ≤ 0xDBFF)
def isLow (u : Nat) : Bool := decide (0xDC00 ≤ u ∧ u ≤ 0xDFFF)

/-- the character after a backslash, if it names one -/
def named? (c : Char) : Option Char :=
  if c = '"' then some '"'
  else if c = '\\' then some '\\'
  else if c = '/' then some '/'
  else if c = 'b' then some '\x08'
  else if c = 'f' then some '\x0c'
  else if c = 'n' then some '\n'
  else if c = 'r' then some '\r'
  else if c = 't' then some '\t'
  else none

/-- one character of a string literal: its 16-bit unit if it is written by number -/
inductive Piece where
  | char (c : Char)
  | unit (u : Nat)
deriving DecidableEq, Repr

/-- the pieces up to the closing quote; `skip` characters belong to the piece before -/
def pieces : Nat → List Char → Option (List Piece × List Char)
  | _, [] => none
  | skip + 1, _ :: rest => pieces skip rest
  | 0, c :: rest =>
    if c = '"' then some ([], rest)
    else if c = '\\' then
      match rest with
      | [] => none
      | e :: after =>
        if e = 'u' then
          (readUnit after).bind fun (u, _) =>
            (pieces 5 rest).map fun (ps, rest) => (.unit u :: ps, rest)
        else
          (named? e).bind fun c => (pieces 1 rest).map fun (ps, rest) => (.char c :: ps, rest)
    else if c.toNat < 0x20 then none
    else (pieces 0 rest).map fun (ps, rest) => (.char c :: ps, rest)

/-- joins surrogate pairs; `none` if half of one stands alone -/
def joinPieces : List Piece → Option (List Char)
  | [] => some []
  | .char c :: rest => (joinPieces rest).map (c :: ·)
  | .unit u :: rest =>
    if isHigh u then
      match rest with
      | .unit v :: rest =>
        if isLow v then
          (joinPieces rest).map
            (Char.ofNat (0x10000 + (u - 0xD800) * 0x400 + (v - 0xDC00)) :: ·)
        else none
      | _ => none
    else if isLow u then none
    else (joinPieces rest).map (Char.ofNat u :: ·)

/-- a string literal after its opening quote; no text if it holds half a surrogate pair -/
def readString (cs : List Char) : Option (Option (List Char) × List Char) :=
  (pieces 0 cs).map fun (ps, rest) => (joinPieces ps, rest)

def ofLiteral : Option (List Char) → Json
  | some text => string text
  | none => unpaired

/-! ## reading: values -/

def expect (c : Char) : List Char → Option (List Char)
  | [] => none
  | d :: rest => if d = c then some rest else none

def keyword (word : List Char) (value : Json) (cs : List Char) : Option (Json × List Char) :=
  if cs.take word.length = word then some (value, cs.drop word.length) else none

mutual

/-- a value at the front, after blanks; `fuel` bounds the depth of the reading -/
def readValue : Nat → List Char → Option (Json × List Char)
  | 0, _ => none
  | fuel + 1, cs =>
    match skipBlank cs with
    | [] => none
    | c :: rest =>
      if c = '"' then (readString rest).map fun (text, rest) => (ofLiteral text, rest)
      else if c = '[' then
        match expect ']' (skipBlank rest) with
        | some rest => some (array [], rest)
        | none => (readItems fuel rest).map fun (items, rest) => (array items, rest)
      else if c = '\x7b' then
        match expect '\x7d' (skipBlank rest) with
        | some rest => some (object [], rest)
        | none => (readMembers fuel rest).map fun (members, rest) => (object members, rest)
      else if c = 'n' then keyword "null".toList null (c :: rest)
      else if c = 't' then keyword "true".toList (bool true) (c :: rest)
      else if c = 'f' then keyword "false".toList (bool false) (c :: rest)
      else (readNumber (c :: rest)).map fun (n, rest) => (number n, rest)

/-- items and their closing bracket -/
def readItems : Nat → List Char → Option (List Json × List Char)
  | 0, _ => none
  | fuel + 1, cs =>
    (readValue fuel cs).bind fun (item, rest) =>
      match skipBlank rest with
      | [] => none
      | c :: rest =>
        if c = ',' then (readItems fuel rest).map fun (items, rest) => (item :: items, rest)
        else if c = ']' then some ([item], rest)
        else none

/-- members and their closing brace -/
def readMembers : Nat → List Char → Option (List (Option (List Char) × Json) × List Char)
  | 0, _ => none
  | fuel + 1, cs =>
    (expect '"' (skipBlank cs)).bind fun rest =>
      (readString rest).bind fun (key, rest) =>
        (expect ':' (skipBlank rest)).bind fun rest =>
          (readValue fuel rest).bind fun (value, rest) =>
            match skipBlank rest with
            | [] => none
            | c :: rest =>
              if c = ',' then
                (readMembers fuel rest).map fun (members, rest) => ((key, value) :: members, rest)
              else if c = '\x7d' then some ([(key, value)], rest)
              else none

end

/-- every level of the reading takes a character at least, so twice their number is enough -/
def parse? (cs : List Char) : Option Json :=
  (readValue (2 * cs.length + 2) cs).bind fun (value, rest) =>
    if (skipBlank rest).isEmpty then some value else none

/-! ## records -/

/-- the members of an object all of whose keys are texts -/
def members? : Json → Option (List (List Char × Json))
  | object members => members.mapM fun (key, value) => key.map fun key => (key, value)
  | _ => none

/-- the member under any of the names, if there is one; `none` if there are several -/
def member? (names : List String) (members : List (List Char × Json)) : Option (Option Json) :=
  match members.filter fun (key, _) => names.any fun name => name.toList == key with
  | [] => some none
  | [(_, value)] => some (some value)
  | _ => none

/-- the one member under any of the names -/
def required? (names : List String) (members : List (List Char × Json)) : Option Json :=
  (member? names members).join

def text? : Json → Option String
  | string text => some (String.ofList text)
  | _ => none

end Json
end RespLink
