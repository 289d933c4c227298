import RespLink.Endpoint
import RespLink.Value

/-!
# Answers

An `Answer` is what a caller gets in the end: a value as it came, or the form of it that the
question asks for.
-/

namespace RespLink

inductive Answer where
  /-- it was done; there is nothing to tell -/
  | done
  | value (v : Value)
  | text (s : String)
  | textIfAny (s? : Option String)
  | integer (n : Int64)
  | list (items : List Value)
  | fields (fs : Fields Value)
  | endpoint (e : Endpoint)
  | endpointIfAny (e? : Option Endpoint)
deriving DecidableEq, Repr

namespace Answer

def ofText (v : Value) : Except Error Answer := v.toText.map text
def ofTextIfAny (v : Value) : Except Error Answer := v.toText?.map textIfAny
def ofInteger (v : Value) : Except Error Answer := v.toInt64.map integer
def ofList (v : Value) : Except Error Answer := v.toList.map list
def ofFields (v : Value) : Except Error Answer := v.toFields.map fields

end Answer
end RespLink
