/-!
# Errors

* `IoError`  a failure of the byte stream: its kind, as the operating system names it, and a text;
* `Error`    what a command, a query or a configuration can fail with.

An error is a plain value: failing every queued command with the cause of a lost connection hands
each of them a duplicate, which is the same error.
-/

namespace RespLink

structure IoError where
  kind : String
  text : String
deriving DecidableEq, Repr

inductive Error where
  /-- the byte stream failed -/
  | io (cause : IoError)
  /-- the peer broke the protocol -/
  | protocol (text : String)
  /-- the server answered with an error reply -/
  | server (text : String)
  /-- connect failure, socket closed, or connection lost -/
  | connection (text : String)
  | timeout
  /-- a reply has no such form -/
  | conversion (text : String)
  | config (text : String)
  | sentinel (text : String)
  | auth (text : String)
  /-- a reply of a shape that the question does not allow -/
  | unexpected (text : String)
deriving DecidableEq, Repr

namespace Error

def message : Error → String
  | .io cause => "IO error: " ++ cause.text
  | .protocol text => "Protocol error: " ++ text
  | .server text => "Server error: " ++ text
  | .connection text => "Connection error: " ++ text
  | .timeout => "Operation timed out"
  | .conversion text => "Type conversion error: " ++ text
  | .config text => "Invalid configuration: " ++ text
  | .sentinel text => "Sentinel error: " ++ text
  | .auth text => "Authentication failed: " ++ text
  | .unexpected text => "Unexpected response: " ++ text

/-- the error made anew; a failure of the byte stream from its kind and its text -/
def duplicate : Error → Error
  | .io cause => .io ⟨cause.kind, cause.text⟩
  | .protocol text => .protocol text
  | .server text => .server text
  | .connection text => .connection text
  | .timeout => .timeout
  | .conversion text => .conversion text
  | .config text => .config text
  | .sentinel text => .sentinel text
  | .auth text => .auth text
  | .unexpected text => .unexpected text

/-- a duplicate has the kind and the message of the error -/
@[simp] theorem duplicate_eq (err : Error) : err.duplicate = err := by
  cases err <;> rfl

/-- the connection itself failed, not what was sent over it -/
def isConnectionError : Error → Bool
  | .io _ | .connection _ | .timeout => true
  | _ => false

/-- the text of the server's error reply -/
def serverMessage : Error → Option String
  | .server text => some text
  | _ => none

end Error
end RespLink
