import RespLink.Info
import RespLink.Reply
import RespLink.Text.Encoding

/-!
# Replies as values

What a reply becomes depends on the reply, on the `Transform` of the command's verb, on the
`Shape` that the caller asks for and on the text encoding.

* `Shape`      the form of a scalar reply;
* `Transform`  what the verb says about the whole reply: nothing, a list even of a scalar, a map
               folded out of a flat array, or server information;
* `transform`  the value of one reply, or why it has none.
-/

namespace RespLink

inductive Shape where
  /-- the payload is not wanted -/
  | unit
  | text
  | bytes
  | integer
  | list
  | map
deriving DecidableEq, Repr

inductive Transform where
  | none
  | list
  | pairs
  | info
deriving DecidableEq, Repr

namespace Shape

def name : Shape → String
  | unit => "Unit"
  | text => "String"
  | bytes => "Bytes"
  | integer => "Integer"
  | list => "List"
  | map => "Map"

end Shape

namespace Transform

def name : Transform → String
  | none => "None"
  | list => "Array"
  | pairs => "Hash"
  | info => "Info"

/-- ASCII letters in upper case, all else unchanged -/
def upperAscii (s : String) : String := String.ofList (s.toList.map Char.toUpper)

/-- the transform of a verb in any letter case -/
def ofVerb (verb : String) : Transform :=
  let upper := upperAscii verb
  if upper = "HGETALL" then pairs
  else if upper = "INFO" then info
  else if upper = "EVAL" ∨ upper = "EVALSHA" then list
  else none

end Transform

/-! ## scalars -/

def castText (s : String) : Shape → Except Error Value
  | .unit => .ok .unit
  | .text | .list => .ok (.text s)
  | .bytes => .ok (.bytes (Utf8.encode s))
  | .integer =>
    match Numeral.int64 s with
    | .ok n => .ok (.int n)
    | .error fault =>
      .error (.conversion ("Cannot parse integer from " ++ Quoted.text s ++ ": " ++ fault.message))
  | .map => .error (.conversion ("Cannot convert " ++ Quoted.text s ++ " to map"))

def castInteger (n : Int64) : Shape → Except Error Value
  | .unit => .ok .unit
  | .integer | .list => .ok (.int n)
  | .text => .ok (.text (Numeral.ofInt n.toInt))
  | .bytes => .ok (.bytes (Utf8.encode (Numeral.ofInt n.toInt)))
  | .map => .error (.conversion ("Cannot convert " ++ Numeral.ofInt n.toInt ++ " to map"))

def castBulk (e : Encoding) (bytes : Bytes) : Shape → Except Error Value
  | .unit => .ok .unit
  | .bytes => .ok (.bytes bytes)
  | .integer => castText (e.decode bytes) .integer
  | .map => .error (.conversion "Cannot convert bulk string to map")
  | .text | .list => .ok (.text (e.decode bytes))

/-! ## elements of arrays -/

def bulkElement (shape : Shape) (e : Encoding) (bytes : Bytes) : Value :=
  if shape = .bytes then .bytes bytes else .text (e.decode bytes)

mutual

/-- an element keeps its own form; only bulk strings look at the shape -/
def element (shape : Shape) (e : Encoding) : Reply → Value
  | .simple s | .error s => .text s
  | .integer n => .int n
  | .bulk bytes => bulkElement shape e bytes
  | .null | .nullArray => .nil
  | .array items => .array (elements shape e items)

def elements (shape : Shape) (e : Encoding) : List Reply → List Value
  | [] => []
  | item :: rest => element shape e item :: elements shape e rest

end

theorem elements_eq_map (shape : Shape) (e : Encoding) (items : List Reply) :
    elements shape e items = items.map (element shape e) := by
  induction items with
  | nil => simp [elements]
  | cons item rest ih => simp [elements, ih]

/-! ## maps -/

/-- the key that a reply stands for -/
def pairKey (e : Encoding) (reply : Reply) : Except Error String :=
  match element .text e reply with
  | .text s => .ok s
  | .int n => .ok (Numeral.ofInt n.toInt)
  | v => .error (.conversion ("Invalid map key: " ++ v.quoted))

/-- folds keys and values that stand in turn onto `fields`; a later pair replaces an earlier one
of the same key -/
def foldPairs (shape : Shape) (e : Encoding) :
    Fields Value → List Reply → Except Error (Fields Value)
  | fields, key :: value :: rest =>
    match pairKey e key with
    | .ok k => foldPairs shape e (fields.insert k (element shape e value)) rest
    | .error err => .error err
  | fields, _ => .ok fields

def pairsOf (shape : Shape) (e : Encoding) (items : List Reply) : Except Error Value :=
  if items.length % 2 ≠ 0 then
    .error (.conversion
      ("Cannot build a map from " ++ Numeral.ofNat items.length ++ " elements"))
  else (foldPairs shape e [] items).map Value.map

/-! ## whole replies -/

/-- what a missing value reads as when the verb has no say -/
def missing (shape : Shape) : Value := if shape = .unit then .unit else .nil

def transform (reply : Reply) (t : Transform) (shape : Shape) (e : Encoding) :
    Except Error Value :=
  match reply with
  | .error text => .error (.server text)
  | .simple s => if t = .list then .ok (.array [.text s]) else castText s shape
  | .integer n => if t = .list then .ok (.array [.int n]) else castInteger n shape
  | .null =>
    match t with
    | .list => .ok (.array [.nil])
    | .info => .ok (.map [])
    | _ => .ok (missing shape)
  | .bulk bytes =>
    match t with
    | .list => .ok (.array [bulkElement shape e bytes])
    | .info => .ok (.map (Info.parse (e.decode bytes)))
    | _ => castBulk e bytes shape
  | .nullArray => if t = .pairs then .ok (.map []) else .ok (missing shape)
  | .array items =>
    if t = .pairs then pairsOf shape e items
    else if shape = .unit then .ok .unit
    else .ok (.array (elements shape e items))

end RespLink
