import RespLink.Json.Records
import RespLink.Link.Attempt
import RespLink.Testbed.Operation

/-!
# A testbed

A `World` holds links under test, a network that does what it is told, and a clock that stands
still until it is moved.

* `Station`    a link and the events that it has not dealt with;
* `Dialler`    a connect attempt of a link, or a lone inquiry;
* `Job`        what is left to do at this instant; jobs are done in the order they came up;
* `Timer`      a job for a later instant; timers of one instant go off in the order they were set;
* `Tally`      what has happened since the last report.

Stations, sockets, dials that hang and operations are numbered from 0.
-/

namespace RespLink
namespace Testbed

/-- what becomes of a dial -/
inductive Mode where
  | accept
  | refuse
  /-- nothing, until it is told -/
  | hang
deriving DecidableEq, Repr

structure Station where
  link : Link
  inbox : List Event

inductive Dialler where
  | attempt (station : Nat) (epoch : Nat) (config : Config) (a : Attempt)
  | lone (operation : Nat) (inquiry : Inquiry)
  | idle

inductive Job where
  /-- a station deals with its events -/
  | serve (station : Nat)
  /-- a connect attempt starts -/
  | attempt (station : Nat) (epoch : Nat) (sentinels? : Option Sentinels)
  | signal (dialler : Nat) (s : Signal)
  /-- the delay before a retry starts -/
  | rest (station : Nat) (delay : Nat)
  /-- the delay is over -/
  | rise (station : Nat)
deriving DecidableEq, Repr

structure Timer where
  due : Nat
  job : Job
deriving DecidableEq, Repr

/-- a dial that hangs -/
inductive Hanging where
  | waiting (dialler : Nat)
  /-- the dialler did not wait any longer -/
  | abandoned
  | finished
deriving DecidableEq, Repr

/-! ## what is reported -/

inductive Fate where
  | accepted (socket : Nat)
  | refused
  | pending (dial : Nat)
deriving DecidableEq, Repr

structure Dialled where
  address : String
  fate : Fate
deriving DecidableEq, Repr

inductive Message where
  /-- handed to a mailbox of a link -/
  | delivered (mailbox : Mailbox) (push : Push)
  /-- announced on the bus of a client -/
  | announced (address : String) (json : String)
deriving DecidableEq, Repr

structure Tally where
  dials : List Dialled
  written : List (Nat × Bytes)
  completed : List (Nat × Except Error Answer)
  messages : List Message
  closed : List Nat

def Tally.empty : Tally := ⟨[], [], [], [], []⟩

/-! ## the whole -/

structure World where
  now : Nat
  modes : Fields Mode
  stations : List Station
  diallers : List Dialler
  jobs : List Job
  timers : List Timer
  /-- for each socket whether this side has it open -/
  sockets : List Bool
  hanging : List Hanging
  operations : List Operation
  /-- pushes are announced on a bus -/
  announcing : Bool
  tally : Tally

namespace World

def start (links : List Link) (announcing : Bool) (modes : Fields Mode) : World where
  now := 0
  modes := modes
  stations := links.map fun l => ⟨l, []⟩
  diallers := []
  jobs := []
  timers := []
  sockets := []
  hanging := []
  operations := []
  announcing := announcing
  tally := .empty

def note (f : Tally → Tally) (w : World) : World := { w with tally := f w.tally }

/-- the job comes after those that are there -/
def later (job : Job) (w : World) : World := { w with jobs := w.jobs ++ [job] }

/-- the job comes before those that are there -/
def next (job : Job) (w : World) : World := { w with jobs := job :: w.jobs }

/-- hands an event to a station, which deals with all of its events in one job -/
def post (station : Nat) (e : Event) (w : World) : World :=
  let w := { w with
    stations := w.stations.modify station fun s => { s with inbox := s.inbox ++ [e] } }
  if w.jobs.contains (.serve station) then w else w.later (.serve station)

def message (address : String) (push : Push) (w : World) : World :=
  let m := if w.announcing then
      Message.announced address (Announcement.ofPush push).text
    else .delivered address push
  w.note fun t => { t with messages := t.messages ++ [m] }

/-! ## operations -/

/-- enters an operation, and gives its number -/
def enter (wanted : Wanted) (awaits : List Nat) (w : World) : World × Nat :=
  ({ w with operations := w.operations ++ [⟨wanted, awaits, [], false⟩] }, w.operations.length)

def finish (n : Nat) (answer : Except Error Answer) (w : World) : World :=
  match w.operations[n]? with
  | none => w
  | some o =>
    if o.cancelled then w
    else w.note fun t => { t with completed := t.completed ++ [(n, answer)] }

/-- a station has resolved its part of an operation -/
def resolve (station n : Nat) (result : Except Error Value) (w : World) : World :=
  match w.operations[n]? with
  | none => w
  | some o =>
    let o := { o with results := o.results ++ [(station, result)] }
    let w := { w with operations := w.operations.set n o }
    if o.ready then w.finish n o.answer else w

end World
end Testbed
end RespLink
