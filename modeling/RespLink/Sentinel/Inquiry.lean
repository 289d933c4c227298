import RespLink.Dial
import RespLink.Reply.Encoder
import RespLink.Reply.Parser
import RespLink.Sentinel.Address

/-!
# Asking a Sentinel

An `Inquiry` asks one Sentinel for the address of a master, over a stream of its own and within a
time limit for the whole of it: dial, write the question, read up to the first reply.

* `Inquiry.start`   dials;
* `Inquiry.ask`     writes the question on the stream that opened;
* `Inquiry.step`    one signal of the network;
* `Inquiry.done`    the answer, once there is one; the stream is closed by then.
-/

namespace RespLink

inductive Inquiry where
  | dialling (master : String)
  | reading (socket : Nat) (parser : Parser)
  | done (answer : Except Error Endpoint)

namespace Inquiry

def question (master : String) : Bytes :=
  encodeCommand "SENTINEL" [Utf8.encode "get-master-addr-by-name", Utf8.encode master]

/-- a stream is read this many bytes at a time -/
def readSize : Nat := 512

def start (sentinel : Endpoint) (master : String) (limit : Nat) : Inquiry × List Action :=
  (dialling master, [.limit limit, .dial sentinel])

def finish (socket : Nat) (answer : Except Error Endpoint) : Inquiry × List Action :=
  (done answer, [.close socket])

/-- the question goes out, or it does not -/
def writing (master : String) (socket : Socket) : List Action :=
  if socket.write.written then [.write socket.number (question master)] else []

/-- a stream that cannot be written to, or flushed, gives no answer -/
def ask (master : String) (socket : Socket) : Inquiry × List Action :=
  match socket.write.fault? with
  | none => (reading socket.number .empty, writing master socket)
  | some cause => (done (.error (.io cause)), writing master socket ++ [.close socket.number])

theorem ask_of_sound {socket : Socket} (sound : socket.write.fault? = none) (master : String) :
    ask master socket = (reading socket.number .empty, writing master socket) := by
  rw [ask, sound]

theorem ask_of_fault {socket : Socket} {cause : IoError}
    (fault : socket.write.fault? = some cause) (master : String) :
    ask master socket =
      (done (.error (.io cause)), writing master socket ++ [.close socket.number]) := by
  rw [ask, fault]

theorem writing_of_sound {socket : Socket} (sound : socket.write.fault? = none)
    (master : String) : writing master socket = [.write socket.number (question master)] :=
  if_pos (Socket.written_of_sound sound)

/-- reads the pieces up to the first reply or fault; a fault hides the replies of its own piece -/
def read (socket : Nat) : Parser → List Bytes → Inquiry × List Action
  | parser, [] => (reading socket parser, [])
  | parser, piece :: rest =>
    match parser.feedAll piece with
    | (_, .error why) => finish socket (.error why.toError)
    | (_, .ok (reply :: _)) => finish socket (masterAddress reply)
    | (parser, .ok []) => read socket parser rest

def step : Inquiry → Signal → Inquiry × List Action
  | dialling master, .connected socket => ask master socket
  | dialling _, .refused cause => (done (.error (.io cause)), [])
  | dialling _, .elapsed => (done (.error .timeout), [])
  | reading socket parser, .heard chunk => read socket parser (Bytes.pieces readSize chunk)
  | reading socket _, .ended =>
    finish socket (.error (.connection "Sentinel closed the connection"))
  | reading socket _, .broken cause => finish socket (.error (.io cause))
  | reading socket _, .elapsed => finish socket (.error .timeout)
  | i, _ => (i, [])

/-- gives up without an answer -/
def abandon : Inquiry → List Action
  | reading socket _ => [.close socket]
  | _ => []

end Inquiry
end RespLink
