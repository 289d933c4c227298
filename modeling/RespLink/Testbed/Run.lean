import RespLink.Testbed.Network

/-!
# Running a testbed

* `perform`  one job;
* `settle`   all jobs of this instant, those that come up included;
* `advance`  the clock moves on, timer by timer; what the timers of one instant cause is over before
             it moves again.
-/

namespace RespLink
namespace Testbed
namespace World

/-- what a link asked for in its turn -/
def effect (station : Nat) (w : World) : Effect → World
  | .dial epoch sentinels? => w.later (.attempt station epoch sentinels?)
  | .wrote socket _ frame => w.wrote socket frame
  | .released socket => w.closeSocket socket
  | .resolved ticket result => w.resolve station ticket result
  | .failed ticket err => w.resolve station ticket (.error err)
  | .idle ticket => w.resolve station ticket (.ok .unit)
  | .delivered mailbox push => w.message mailbox push
  | .retryAfter delay => w.later (.rest station delay)
  | .attached .. | .met .. => w

def serve (station : Nat) (w : World) : World :=
  match w.stations[station]? with
  | none => w
  | some s =>
    let turn := Link.run s.inbox s.link
    turn.effects.foldl (effect station)
      { w with stations := w.stations.set station ⟨turn.link, []⟩ }

def attempt (station epoch : Nat) (sentinels? : Option Sentinels) (w : World) : World :=
  match w.stations[station]? with
  | none => w
  | some s =>
    let (a, actions) := Attempt.start s.link.config sentinels?
    w.employ (.attempt station epoch s.link.config a) actions

def doJob (w : World) : Job → World
  | .serve station => w.serve station
  | .attempt station epoch sentinels? => w.attempt station epoch sentinels?
  | .signal dialler s => w.signal dialler s
  | .rest station delay => w.setTimer delay (.rise station)
  | .rise station => w.post station .retry

/-- the timers that are due go off together -/
def fire (w : World) : World :=
  { w with
    jobs := w.jobs ++ (w.timers.filter fun t => t.due ≤ w.now).map Timer.job
    timers := w.timers.filter fun t => w.now < t.due }

def hasDue (w : World) : Bool := w.timers.any fun t => t.due ≤ w.now

/-- more jobs than an instant holds, unless retries follow each other without any delay -/
def jobLimit : Nat := 100000

def work : Nat → World → World
  | 0, w => w
  | fuel + 1, w =>
    match w.jobs with
    | job :: rest => work fuel (doJob { w with jobs := rest } job)
    | [] => if w.hasDue then work fuel w.fire else w

def workOff (w : World) : World := work jobLimit w

/-! ## the clock -/

/-- the instant of the next timer -/
def nextDue? (w : World) : Option Nat := (w.timers.map Timer.due).min?

/-- each round ends later than it began, so there are as many rounds as milliseconds at most -/
def rounds (target : Nat) : Nat → World → World
  | 0, w => w
  | fuel + 1, w =>
    match w.nextDue? with
    | none => w
    | some due =>
      if due ≤ target then rounds target fuel (workOff { w with now := max w.now due }) else w

def advance (duration : Nat) (w : World) : World :=
  let target := w.now + duration
  { rounds target (duration + 1) w with now := target }

end World
end Testbed
end RespLink
