import RespLink.Link.Receiving

/-!
# Events

What happens to a link, one thing at a time.

* `Event`  what its handles ask for, and what connect attempts, sockets and timers report;
* `step`   the turn that an event leads to;
* `run`    the turn that a list of events leads to.

A report of an epoch that is not the link's own is ignored; a socket that comes too late is let go.
-/

namespace RespLink

inductive Event where
  | send (c : Command)
  | disconnect (t : Ticket)
  /-- the connect attempt of an epoch got a socket, through a Sentinel if there is an index -/
  | attached (epoch : Nat) (socket : Socket) (sentinel? : Option Nat)
  | connectFailed (epoch : Nat) (err : Error) (retry : Bool)
  | data (epoch : Nat) (chunk : Bytes)
  /-- the peer closed the socket -/
  | closed (epoch : Nat)
  | readFailed (epoch : Nat) (cause : IoError)
  /-- a delay asked for is over -/
  | retry
  /-- from now on frames fail, all but the next `frames` -/
  | writesFail (frames : Nat) (cause : IoError)
  /-- frames are written, and from now on not flushed, all but the next `frames` -/
  | flushesFail (frames : Nat) (cause : IoError)
  /-- the last handle is gone -/
  | shutdown
deriving DecidableEq, Repr

namespace Link

def shutdown (l : Link) : Turn :=
  (l.drain (.connection "Connection dropped")).andThen fun l =>
    .of { l with phase := .disconnected, stopped := true }

theorem shutdown_link (l : Link) :
    l.shutdown.link =
      { l with
        phase := .disconnected, epoch := l.epoch + 1, pending := [], waiting := [],
        parser := .empty, socket? := none, stopped := true } := rfl

theorem shutdown_effects (l : Link) :
    l.shutdown.effects =
      failures (.connection "Connection dropped") (l.waitingCommands ++ l.pending)
        ++ l.socket?.toList.map fun s => .released s.number := by
  simp [shutdown, drain, failWaiting, failPending, release, failures, Turn.andThen, Turn.of,
    waitingCommands]

/-- what a stopped link does -/
def stoppedStep (l : Link) : Event → Turn
  | .send c => ⟨l, failures (.connection "Connection task stopped") [c]⟩
  | .disconnect t => ⟨l, [.idle t]⟩
  | .attached _ socket _ => ⟨l, [.released socket.number]⟩
  | _ => .of l

def runningStep (l : Link) : Event → Turn
  | .send c => l.send c
  | .disconnect t => l.disconnect t
  | .attached epoch socket sentinel? =>
    if l.epoch = epoch ∧ l.phase = .connecting then l.attach socket sentinel?
    else ⟨l, [.released socket.number]⟩
  | .connectFailed epoch err retry => if l.epoch = epoch then l.fail err retry else .of l
  | .data epoch chunk => if l.epoch = epoch then l.receive chunk else .of l
  | .closed epoch =>
    if l.epoch = epoch then l.fail (.connection "Connection closed by peer") false else .of l
  | .readFailed epoch cause => if l.epoch = epoch then l.fail (.io cause) false else .of l
  | .retry => l.connect
  | .writesFail frames cause =>
    .of { l with socket? := l.socket?.map fun s => { s with writeLapse? := some ⟨frames, cause⟩ } }
  | .flushesFail frames cause =>
    .of { l with socket? := l.socket?.map fun s => { s with flushLapse? := some ⟨frames, cause⟩ } }
  | .shutdown => l.shutdown

def step (l : Link) (e : Event) : Turn := if l.stopped then l.stoppedStep e else l.runningStep e

theorem step_of_stopped {l : Link} (h : l.stopped = true) (e : Event) :
    l.step e = l.stoppedStep e := by
  simp [step, h]

theorem step_of_running {l : Link} (h : l.stopped = false) (e : Event) :
    l.step e = l.runningStep e := by
  simp [step, h]

def run : List Event → Link → Turn
  | [], l => .of l
  | e :: rest, l => (l.step e).andThen (run rest)

theorem run_append (a b : List Event) (l : Link) :
    run (a ++ b) l = (run a l).andThen (run b) := by
  induction a generalizing l with
  | nil => simp [run, Turn.of_andThen]
  | cons e a ih =>
    simp only [List.cons_append, run, Turn.andThen_assoc]
    congr 1
    funext m
    exact ih m

end Link
end RespLink
