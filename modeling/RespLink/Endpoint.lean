import RespLink.Error
import RespLink.Number.Numeral
import RespLink.Text.Split

/-!
# Endpoints

An `Endpoint` is the host and port of a server or a Sentinel.  Its address is the host, a colon
and the port in decimal; the host may hold colons itself.
-/

namespace RespLink

structure Endpoint where
  host : String
  port : UInt16
deriving DecidableEq, Repr

namespace Endpoint

def address (e : Endpoint) : String := e.host ++ ":" ++ Numeral.ofNat e.port.toNat

/-- the last colon separates a host, which is not empty, from the port -/
def ofAddress (address : String) : Except Error Endpoint :=
  match splitLast ':' address.toList with
  | none | some ([], _) => .error (.config ("Invalid sentinel address: " ++ address))
  | some (host, port) =>
    match Numeral.uint16 (String.ofList port) with
    | .ok port => .ok ⟨String.ofList host, port⟩
    | .error _ => .error (.config ("Invalid port in sentinel address: " ++ address))

end Endpoint
end RespLink
