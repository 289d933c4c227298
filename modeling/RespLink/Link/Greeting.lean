import RespLink.Link.Sending

/-!
# The handshake

On a new socket the steps of the handshake are written one at a time, each after the last was
answered: `AUTH` if there is a password, `ROLE` if a Sentinel led to this peer, `SELECT` if there is
a database.  Then the link is connected and the pending commands are written.

* `attach`     takes a new socket into use;
* `answered`   the reply to one step.
-/

namespace RespLink

/-- the reply to `ROLE` of a server that accepts writes -/
def Reply.isMaster : Reply → Bool
  | .array (.simple role :: _) => role == "master"
  | .array (role :: _) => role.isBulk "master"
  | _ => false

namespace Link

/-- writes commands until the link is no longer connected -/
def flush : List Command → Link → Turn
  | [], l => .of l
  | c :: rest, l =>
    if l.phase = .connected then
      (dispatch c { l with pending := rest }).andThen (flush rest)
    else .of l

def finishHandshake (l : Link) : Turn :=
  if l.phase = .connecting then flush l.pending { l with phase := .connected } else .of l

def writeHandshake (h : Handshake) (verb : String) (args : List Bytes) (l : Link) : Turn :=
  write (.handshake h) (encodeCommand verb args) l

def beginSelect (l : Link) : Turn :=
  match l.config.database with
  | some db => l.writeHandshake .select "SELECT" [decimal db.toNat]
  | none => l.finishHandshake

def beginRole (sentinel? : Option Nat) (l : Link) : Turn :=
  match sentinel? with
  | some i => l.writeHandshake (.role i) "ROLE" []
  | none => l.beginSelect

def beginAuth (sentinel? : Option Nat) (l : Link) : Turn :=
  match l.config.password with
  | some password =>
    l.writeHandshake (.auth sentinel?) "AUTH" [l.config.encoding.encode password]
  | none => l.beginRole sentinel?

/-- nothing written on an earlier socket can be answered on this one; the frames that are written
on it at once may fail as any other -/
def attach (socket : Socket) (sentinel? : Option Nat) (l : Link) : Turn :=
  let taken : Turn := ⟨{ l with socket? := some socket, parser := .empty },
    [.attached l.epoch socket.number sentinel?]⟩
  (taken.andThen (failWaiting (.connection "Connection lost"))).andThen (beginAuth sentinel?)

def answered : Handshake → Reply → Link → Turn
  | .auth _, .error text, l => l.fail (.auth text) false
  | .auth sentinel?, _, l => l.beginRole sentinel?
  | .role i, reply, l =>
    if reply.isMaster then beginSelect { l with sentinels := l.sentinels.moveToFront i }
    else l.fail (.sentinel "Resolved peer is not a master") true
  | .select, .error text, l => l.fail (.server text) false
  | .select, _, l => l.finishHandshake

end Link
end RespLink
