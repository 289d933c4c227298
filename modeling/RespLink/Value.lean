import RespLink.Fields
import RespLink.Text.Quoted
import RespLink.Text.Read

/-!
# Values

A `Value` is what a command resolves to once its replies are read.

* `quoted`   its text inside messages;
* `toText`, `toText?`, `toInt64`, `toList`, `toFields`  the forms a caller may ask for.
-/

namespace RespLink

inductive Value where
  /-- no value -/
  | nil
  /-- the command succeeded and its payload is not wanted -/
  | unit
  | text (s : String)
  | bytes (bs : Bytes)
  | int (n : Int64)
  | array (items : List Value)
  | map (fields : List (String × Value))
deriving Repr

namespace Value

def isNil : Value → Bool
  | nil => true
  | _ => false

def asText? : Value → Option String
  | text s => some s
  | _ => none

def asArray? : Value → Option (List Value)
  | array items => some items
  | _ => none

def asMap? : Value → Option (Fields Value)
  | map fields => some fields
  | _ => none

/-- the value under a key of a map -/
def get? (key : String) (v : Value) : Option Value := v.asMap?.bind fun fields => fields.get? key

/-! ## text in messages -/

mutual

def quoted : Value → String
  | nil => "Nil"
  | unit => "Unit"
  | text s => "String(" ++ Quoted.text s ++ ")"
  | bytes bs => "Bytes(" ++ Quoted.list (bs.map fun b => Numeral.ofNat b.toNat) ++ ")"
  | int n => "Int(" ++ Numeral.ofInt n.toInt ++ ")"
  | array items => "Array(" ++ Quoted.list (quotedItems items) ++ ")"
  | map fields => "Map(\x7b" ++ ", ".intercalate (quotedFields fields) ++ "\x7d)"

def quotedItems : List Value → List String
  | [] => []
  | item :: rest => quoted item :: quotedItems rest

def quotedFields : List (String × Value) → List String
  | [] => []
  | (key, value) :: rest => (Quoted.text key ++ ": " ++ quoted value) :: quotedFields rest

end

/-! ## equality -/

mutual

def same : Value → Value → Bool
  | nil, nil => true
  | unit, unit => true
  | text s, text t => s == t
  | bytes b, bytes c => b == c
  | int m, int n => m == n
  | array l, array m => sameItems l m
  | map l, map m => sameFields l m
  | _, _ => false

def sameItems : List Value → List Value → Bool
  | [], [] => true
  | a :: l, b :: m => same a b && sameItems l m
  | _, _ => false

def sameFields : List (String × Value) → List (String × Value) → Bool
  | [], [] => true
  | (j, a) :: l, (k, b) :: m => j == k && same a b && sameFields l m
  | _, _ => false

end

mutual

theorem same_iff : ∀ a b : Value, same a b = true ↔ a = b
  | nil, b => by cases b <;> simp [same]
  | unit, b => by cases b <;> simp [same]
  | text _, b => by cases b <;> simp [same]
  | bytes _, b => by cases b <;> simp [same]
  | int _, b => by cases b <;> simp [same]
  | array l, b => by cases b <;> simp [same, sameItems_iff l]
  | map l, b => by cases b <;> simp [same, sameFields_iff l]

theorem sameItems_iff : ∀ l m : List Value, sameItems l m = true ↔ l = m
  | [], m => by cases m <;> simp [sameItems]
  | a :: l, m => by cases m <;> simp [sameItems, same_iff a, sameItems_iff l]

theorem sameFields_iff : ∀ l m : List (String × Value), sameFields l m = true ↔ l = m
  | [], m => by cases m <;> simp [sameFields]
  | (j, a) :: l, m => by
    cases m with
    | nil => simp [sameFields]
    | cons f m => simp [sameFields, same_iff a, sameFields_iff l, Prod.ext_iff, and_assoc]

end

instance : DecidableEq Value := fun a b => decidable_of_iff _ (same_iff a b)

/-! ## forms -/

def cannotConvert (v : Value) (form : String) : Error :=
  .conversion ("Cannot convert " ++ v.quoted ++ " to " ++ form)

def toText : Value → Except Error String
  | text s => .ok s
  | int n => .ok (Numeral.ofInt n.toInt)
  | bytes bs => Text.readUtf8 bs
  | v => .error (v.cannotConvert "string")

/-- a missing value is no text rather than an error -/
def toText? : Value → Except Error (Option String)
  | nil => .ok none
  | v => v.toText.map some

def toInt64 : Value → Except Error Int64
  | int n => .ok n
  | text s => Text.readInt64 s
  | v => .error (v.cannotConvert "integer")

/-- a missing value is the empty list -/
def toList : Value → Except Error (List Value)
  | array items => .ok items
  | nil => .ok []
  | v => .error (v.cannotConvert "array")

/-- a missing value is the empty map -/
def toFields : Value → Except Error (Fields Value)
  | map fields => .ok fields
  | nil => .ok []
  | v => .error (v.cannotConvert "map")

end Value
end RespLink
