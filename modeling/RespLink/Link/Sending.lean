import RespLink.Link.Failure

/-!
# Sending

A connected link writes a command at once, a connecting one keeps it, and a disconnected one keeps
it and starts to connect.

* `write`       one frame, and what awaits its reply; a failure to write is the failure of the link;
* `dispatch`    writes a command;
* `connect`     starts a connect attempt;
* `send`        submits a command; one that changes subscriptions changes the registry now;
* `disconnect`  asks the server to part.
-/

namespace RespLink
namespace Link

def write (w : Waiter) (frame : Bytes) (l : Link) : Turn :=
  let awaiting := { l with waiting := l.waiting ++ [w] }
  match l.socket? with
  | none => awaiting.fail (.io ⟨"NotConnected", "socket not attached"⟩) false
  | some s =>
    let t : Turn := ⟨{ awaiting with socket? := some s.write.socket },
      if s.write.written then [.wrote s.number w frame] else []⟩
    match s.write.fault? with
    | none => t
    | some cause => t.andThen (fail (.io cause) false)

def dispatch (c : Command) (l : Link) : Turn := write (.command c) c.frame l

def connect (l : Link) : Turn :=
  if l.phase = .disconnected then
    ⟨{ l with
        phase := .connecting, epoch := l.epoch + 1, attempts := l.attempts + 1, parser := .empty },
      [.dial (l.epoch + 1) (if l.config.sentinelMode then some l.sentinels else none)]⟩
  else .of l

def queue (c : Command) (l : Link) : Turn :=
  match l.phase with
  | .connected => l.dispatch c
  | .disconnected => connect { l with pending := l.pending ++ [c] }
  | .connecting | .failed => .of { l with pending := l.pending ++ [c] }

def send (c : Command) (l : Link) : Turn :=
  match c.change?, l.role with
  | none, _ => l.queue c
  | some _, .command =>
    ⟨l, failures (.config (c.verb ++ " must be sent on the pub/sub connection")) [c]⟩
  | some change, .pubsub =>
    let (registry, replies) := l.registry.apply change
    queue (c.expecting replies) { l with registry := registry }

/-- the request that ends a connection in agreement with the server -/
def quit : Request := (Request.ofVerb "QUIT").returning .unit

/-- the ticket resolves at once if there is nothing to end -/
def disconnect (t : Ticket) (l : Link) : Turn :=
  if l.phase.isActive then l.send (Command.ofRequest t quit l.config.encoding)
  else ⟨l, [.idle t]⟩

end Link
end RespLink
