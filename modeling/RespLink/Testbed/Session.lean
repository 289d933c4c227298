import RespLink.Sentinel.Question
import RespLink.Testbed.Run

/-!
# Sessions

A `Session` puts one object into a testbed and takes it through steps.

* `Subject`   the object: a link, a client, a link to a Sentinel, or one inquiry;
* `Step`      what its user, its peers or the clock do;
* `Reaction`  what the step answers at once;
* `Report`    what a step led to, and what the links look like after it.
-/

namespace RespLink
namespace Testbed

/-! ## subjects -/

inductive Subject where
  | link (role : Role)
  | client
  | sentinel
  | inquiry
  /-- let go by its user -/
  | dropped
deriving DecidableEq, Repr

structure Session where
  subject : Subject
  config : Config
  world : World

/-- a mailbox of its own for every key of an operation -/
def label (n : Nat) (key : String) : Mailbox := Numeral.ofNat n ++ "/" ++ key

/-- changes of subscriptions, before there are mailboxes -/
structure Wish where
  subscribes : Bool
  kind : Kind
  keys : List String
deriving DecidableEq, Repr

def Wish.change (w : Wish) (n : Nat) : Change :=
  if w.subscribes then .subscribe w.kind (w.keys.map fun key => (key, label n key))
  else .unsubscribe w.kind w.keys

/-- a command as its user describes it; only the request matters to a client -/
structure Submission where
  request : Request
  encoding : Encoding
  replies? : Option Nat
  wish? : Option Wish
deriving DecidableEq, Repr

def Submission.command (s : Submission) (n : Nat) : Command :=
  let c := Command.ofRequest n s.request s.encoding
  let c := match s.replies? with
    | some replies => c.expecting replies
    | none => c
  match s.wish? with
  | some wish => c.changing (wish.change n)
  | none => c

inductive Step where
  | send (s : Submission)
  /-- all are submitted before anything else happens -/
  | batch (ss : List Submission)
  | call (c : Call)
  | ask (q : Question)
  | disconnect
  | cancel (operation : Nat)
  | drop
  | recv (socket? : Option Nat) (chunk : Bytes)
  | eof (socket? : Option Nat)
  | readError (socket? : Option Nat) (cause : IoError)
  | writeError (socket? : Option Nat) (frames : Nat) (cause : IoError)
  | flushError (socket? : Option Nat) (cause : IoError)
  | accept (dial : Nat)
  | reject (dial : Nat) (cause : IoError)
  | mode (address : String) (m : Mode)
  | advance (duration : Nat)
  | debug
deriving DecidableEq, Repr

/-! ## reports -/

inductive Reaction where
  | nothing
  | number (n : Nat)
  | word (s : String)
  | list (rs : List Reaction)

structure Report where
  reaction : Reaction
  dials : List Dialled
  /-- for each socket all that was written -/
  written : List (Nat × Bytes)
  completed : List (Nat × Except Error Answer)
  messages : List Message
  closed : List Nat
  links : List Snapshot

namespace Session

/-- the bytes per socket, in the order of the sockets -/
def gather (sockets : Nat) (frames : List (Nat × Bytes)) : List (Nat × Bytes) :=
  ((List.range sockets).map fun n =>
    (n, (frames.filter fun f => f.1 = n).flatMap Prod.snd)).filter fun f => f.2 ≠ []

def links (s : Session) : List Link :=
  match s.subject with
  | .inquiry | .dropped => []
  | _ => s.world.stations.map Station.link

/-- what there is to tell, and a session that starts to count anew -/
def report (reaction : Reaction) (s : Session) : Session × Report :=
  let t := s.world.tally
  ({ s with world := { s.world with tally := .empty } },
    { reaction := reaction
      dials := t.dials
      written := gather s.world.sockets.length t.written
      completed := t.completed.mergeSort fun a b => a.1 ≤ b.1
      messages := t.messages
      closed := t.closed.mergeSort fun a b => a ≤ b
      links := s.links.map Link.snapshot })

/-! ## starting -/

def ofLinks (subject : Subject) (config : Config) (modes : Fields Mode) (links : List Link) :
    Session :=
  ⟨subject, config, .start links (subject = .client) modes⟩

def start (subject : Subject) (config : Config) (modes : Fields Mode) (master : String) :
    Except Error Session :=
  match subject with
  | .link role => .ok (ofLinks subject config modes [Link.start role config])
  | .client =>
    (Client.start config).map fun c => ofLinks subject config modes [c.command, c.pubsub]
  | .sentinel => (Link.toSentinel config).map fun l => ofLinks subject config modes [l]
  | .inquiry =>
    let world := (World.start [] false modes).enter .acknowledgement []
    let (inquiry, actions) :=
      Inquiry.start ⟨config.host, config.port⟩ master config.sentinelTimeout
    .ok ⟨subject, config, (world.1.employ (.lone world.2 inquiry) actions).workOff⟩
  | .dropped => .ok (ofLinks subject config modes [])

/-! ## operations of the user -/

def station : Role → Nat
  | .command => 0
  | .pubsub => 1

/-- an operation whose events go to the stations in the order given -/
def operate (wanted : Wanted) (parts : Nat → List (Nat × Event)) (s : Session) :
    Session × Reaction :=
  let n := s.world.operations.length
  let (world, _) := s.world.enter wanted ((parts n).map Prod.fst)
  ({ s with world := (parts n).foldl (fun w (station, e) => w.post station e) world }, .number n)

def noTarget (s : Session) : Session × Reaction := (s, .word "no target")

def request (wanted : Wanted) (r : Request) (s : Session) : Session × Reaction :=
  s.operate wanted fun n =>
    (Client.commands s.config n r).map fun (role, c) => (station role, .send c)

def send (sub : Submission) (s : Session) : Session × Reaction :=
  match s.subject with
  | .link _ => s.operate .value fun n => [(0, .send (sub.command n))]
  | .client => s.request .value sub.request
  | _ => s.noTarget

def sendAll : List Submission → Session → Session × List Reaction
  | [], s => (s, [])
  | sub :: rest, s =>
    let (s, r) := s.send sub
    let (s, rs) := sendAll rest s
    (s, r :: rs)

def call (c : Call) (s : Session) : Session × Reaction :=
  match s.subject with
  | .client => s.request (.form c.answer) c.request
  | _ => s.noTarget

def ask (q : Question) (s : Session) : Session × Reaction :=
  match s.subject with
  | .sentinel =>
    s.operate (.form q.answer) fun n =>
      [(0, .send (Command.ofRequest n q.request s.config.encoding))]
  | _ => s.noTarget

def disconnect (s : Session) : Session × Reaction :=
  match s.subject with
  | .inquiry | .dropped => s.noTarget
  | _ =>
    s.operate .acknowledgement fun n =>
      (List.range s.world.stations.length).map fun station => (station, .disconnect n)

def cancel (n : Nat) (s : Session) : Session × Reaction :=
  match s.world.operations[n]? with
  | none => (s, .word "no operation")
  | some o =>
    let world := { s.world with operations := s.world.operations.set n { o with cancelled := true } }
    ({ s with world := world.abandonInquiry n }, .word "ok")

def drop (s : Session) : Session :=
  let stations := List.range s.world.stations.length
  { s with
    subject := .dropped
    world := stations.foldl (fun w station => w.post station .shutdown) s.world }

/-! ## deeds of the peers -/

/-- something that happens on a socket, the newest one if none is named -/
def onSocket (socket? : Option Nat) (f : Nat → World → World) (s : Session) : Session × Reaction :=
  let newest := if s.world.sockets = [] then none else some (s.world.sockets.length - 1)
  match socket?.or newest with
  | none => (s, .word "no socket")
  | some socket =>
    if socket < s.world.sockets.length then
      if s.world.isOpen socket then ({ s with world := f socket s.world }, .word "ok")
      else (s, .word "closed")
    else (s, .word "no socket")

def settleDial (dial : Nat) (f : Nat → World → World) (s : Session) : Session × Reaction :=
  match s.world.settle dial with
  | (w, .settled dialler) => ({ s with world := f dialler w }, .word "ok")
  | (w, .abandoned) => ({ s with world := w }, .word "gone")
  | (w, .unknown) => ({ s with world := w }, .word "no dial")

/-! ## steps -/

/-- the text of the object; a client also announces a message to show where its bus is -/
def debug (s : Session) : Session × Reaction :=
  match s.subject, s.world.stations with
  | .link role, [l] => (s, .list [.word l.link.quoted, .word role.name])
  | .client, [c, p] =>
    ({ s with world := s.world.message "debug" ⟨"c", "p", none⟩ },
      .list [.word (Client.quoted ⟨s.config, c.link, p.link⟩), .word s.config.address])
  | .sentinel, [l] => (s, .word l.link.quoted)
  | _, _ => (s, .nothing)

def act (s : Session) : Step → Session × Reaction
  | .send sub => s.send sub
  | .batch subs =>
    let (s, rs) := s.sendAll subs
    (s, .list rs)
  | .call c => s.call c
  | .ask q => s.ask q
  | .disconnect => s.disconnect
  | .cancel n => s.cancel n
  | .drop => (s.drop, .nothing)
  | .recv socket? chunk =>
    s.onSocket socket? fun n w => w.hear n (fun epoch => .data epoch chunk) (.heard chunk)
  | .eof socket? => s.onSocket socket? fun n w => w.hear n Event.closed .ended
  | .readError socket? cause =>
    s.onSocket socket? fun n w => w.hear n (fun epoch => .readFailed epoch cause) (.broken cause)
  | .writeError socket? frames cause =>
    s.onSocket socket? fun n w => w.spoil n (.writesFail frames cause)
  | .flushError socket? cause => s.onSocket socket? fun n w => w.spoil n (.flushesFail 0 cause)
  | .accept dial => s.settleDial dial World.acceptDial
  | .reject dial cause =>
    s.settleDial dial fun dialler w => w.later (.signal dialler (.refused cause))
  | .mode address m =>
    ({ s with world := { s.world with modes := s.world.modes.insert address m } }, .nothing)
  | .advance duration => ({ s with world := s.world.advance duration }, .nothing)
  | .debug => s.debug

/-- a step is over when nothing is left to do -/
def step (s : Session) (step : Step) : Session × Report :=
  let (s, reaction) := s.act step
  report reaction { s with world := s.world.workOff }

def steps : List Step → Session → List Report
  | [], _ => []
  | first :: rest, s =>
    let (s, r) := s.step first
    r :: steps rest s

/-- the report on the start, then one for each step -/
def run (first : List Step) (s : Session) : List Report :=
  let (s, r) := s.report .nothing
  r :: steps first s

end Session
end Testbed
end RespLink
