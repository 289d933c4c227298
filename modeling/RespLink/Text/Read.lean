import RespLink.Error
import RespLink.Number.Numeral
import RespLink.Text.Utf8

/-!
# Conversions that can fail

* `readUtf8`   the text of bytes that must be well-formed;
* `readInt64`  the integer of a text that must be a numeral.

Both fail with a conversion error that tells what is wrong.
-/

namespace RespLink.Text

def readUtf8 (bs : Bytes) : Except Error String :=
  match Utf8.decode? bs with
  | .ok text => .ok text
  | .error fault => .error (.conversion ("Invalid UTF-8: " ++ fault.message))

def readInt64 (text : String) : Except Error Int64 :=
  match Numeral.int64 text with
  | .ok n => .ok n
  | .error fault => .error (.conversion ("Cannot parse integer: " ++ fault.message))

end RespLink.Text
