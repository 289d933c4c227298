import RespLink.Command
import RespLink.Dial
import RespLink.Reply.Parser
import RespLink.Sentinel.Order

/-!
# Links

A `Link` is one logical connection to a server, over one socket after another.

* `Role`       what it is used for: commands, or subscriptions and their pushes;
* `Phase`      where it is in its life; nothing is dialled before the first command;
* `pending`    commands submitted before the link was usable, in order;
* `waiting`    what was written on the socket and is not answered yet, in order;
* `epoch`      the generation of the socket: what a connect attempt or a socket reports carries the
               epoch it belongs to, so that a socket of the past is never mistaken for this one;
* `snapshot`   the numbers that an onlooker sees.

The handshake comes before any command: the password if there is one, the role of a peer that a
Sentinel reported, the database if one is chosen.
-/

namespace RespLink

inductive Role where
  | command
  | pubsub
deriving DecidableEq, Repr

def Role.name : Role → String
  | .command => "command"
  | .pubsub => "pubsub"

def Role.quoted : Role → String
  | .command => "Command"
  | .pubsub => "PubSub"

inductive Phase where
  /-- no socket; the next command starts a connect -/
  | disconnected
  /-- connecting, or in the handshake -/
  | connecting
  /-- commands are written at once -/
  | connected
  /-- the queues are being failed; no event meets a link in this phase -/
  | failed
deriving DecidableEq, Repr

namespace Phase

def name : Phase → String
  | disconnected => "DISCONNECTED"
  | connecting => "CONNECTING"
  | connected => "CONNECTED"
  | failed => "ERROR"

def quoted : Phase → String
  | disconnected => "Disconnected"
  | connecting => "Connecting"
  | connected => "Connected"
  | failed => "Error"

def isActive : Phase → Bool
  | connecting | connected => true
  | disconnected | failed => false

end Phase

/-! ## what is awaited -/

/-- a step of the handshake that was written -/
inductive Handshake where
  /-- and the index of the Sentinel that led to this peer, if one did -/
  | auth (sentinel? : Option Nat)
  | role (sentinel : Nat)
  | select
deriving DecidableEq, Repr

inductive Waiter where
  | command (c : Command)
  | handshake (h : Handshake)
deriving DecidableEq, Repr

namespace Waiter

def command? : Waiter → Option Command
  | command c => some c
  | handshake _ => none

/-- the replies still to come -/
def slots : Waiter → Nat
  | command c => c.remaining
  | handshake _ => 1

end Waiter

/-! ## the link -/

structure Link where
  role : Role
  config : Config
  phase : Phase
  epoch : Nat
  /-- connect attempts so far -/
  attempts : Nat
  pending : List Command
  waiting : List Waiter
  parser : Parser
  socket? : Option Socket
  /-- in the order in which the next attempt asks them -/
  sentinels : Sentinels
  /-- empty on a link for commands -/
  registry : Registry
  /-- the last handle to the link is gone -/
  stopped : Bool
deriving DecidableEq, Repr

structure Snapshot where
  phase : Phase
  pending : Nat
  waiting : Nat
  channels : Nat
  patterns : Nat
  sentinels : Sentinels
  attempts : Nat
deriving DecidableEq, Repr

namespace Link

def start (role : Role) (config : Config) : Link where
  role := role
  config := config
  phase := .disconnected
  epoch := 0
  attempts := 0
  pending := []
  waiting := []
  parser := .empty
  socket? := none
  sentinels := (Sentinels.ofConfig? config).getD []
  registry := .empty
  stopped := false

/-- the commands that were written and are not complete -/
def waitingCommands (l : Link) : List Command := l.waiting.filterMap Waiter.command?

def snapshot (l : Link) : Snapshot where
  phase := l.phase
  pending := l.pending.length
  waiting := l.waiting.foldr (fun w n => w.slots + n) 0
  channels := l.registry.count .channel
  patterns := l.registry.count .pattern
  sentinels := l.sentinels
  attempts := l.attempts

def quoted (l : Link) : String :=
  "RedisConnection \x7b role: " ++ l.role.quoted ++ ", state: " ++ l.phase.quoted ++ " \x7d"

end Link
end RespLink
