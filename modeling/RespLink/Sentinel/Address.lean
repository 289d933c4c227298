import RespLink.Endpoint
import RespLink.Reply

/-!
# What a Sentinel says about a master

The answer to `SENTINEL get-master-addr-by-name` is an array of host and port, or null if the
Sentinel does not know the master.
-/

namespace RespLink

/-- the port of a master in decimal -/
def masterPort (text : String) : Except Error UInt16 :=
  match Numeral.uint16 text with
  | .ok port => .ok port
  | .error _ => .error (.sentinel ("Invalid master port: " ++ text))

def masterAddress : Reply → Except Error Endpoint
  | .array [host, port] =>
    host.asText.bind fun host => port.asText.bind fun port => (masterPort port).map fun port =>
      ⟨host, port⟩
  | .null | .nullArray => .error (.sentinel "Sentinel does not know the master")
  | .error text => .error (.sentinel text)
  | other => .error (.unexpected other.quoted)

end RespLink
