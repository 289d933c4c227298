import RespLink.Testbed.World

/-!
# The network of the testbed

* `perform`   what a dialler asks for;
* `signal`    a signal reaches a dialler, which goes on as far as it can;
* `hear`      something reaches whoever uses a socket;
* `settle`    a dial that hangs comes to its end.
-/

namespace RespLink
namespace Testbed
namespace World

def isOpen (socket : Nat) (w : World) : Bool := w.sockets[socket]?.getD false

/-- the mode of an address, else the one that stands for all addresses -/
def mode (address : String) (w : World) : Mode :=
  (w.modes.get? address).getD ((w.modes.get? "*").getD .accept)

def refusal : IoError := ⟨"ConnectionRefused", "refused"⟩

def closeSocket (socket : Nat) (w : World) : World :=
  note (fun t => { t with closed := t.closed ++ [socket] })
    { w with sockets := w.sockets.set socket false }

/-- a new socket, and its number -/
def openSocket (w : World) : World × Nat :=
  ({ w with sockets := w.sockets ++ [true] }, w.sockets.length)

def wrote (socket : Nat) (frame : Bytes) (w : World) : World :=
  w.note fun t => { t with written := t.written ++ [(socket, frame)] }

def dialled (address : String) (fate : Fate) (w : World) : World :=
  w.note fun t => { t with dials := t.dials ++ [⟨address, fate⟩] }

/-! ## time limits -/

def clearLimit (dialler : Nat) (w : World) : World :=
  { w with timers := w.timers.filter fun t => t.job ≠ .signal dialler .elapsed }

def setTimer (delay : Nat) (job : Job) (w : World) : World :=
  { w with timers := w.timers ++ [⟨w.now + delay, job⟩] }

/-! ## diallers -/

/-- a dial that is decided at once goes on before anything else does -/
def dial (dialler : Nat) (peer : Endpoint) (w : World) : World :=
  match w.mode peer.address with
  | .accept =>
    let (w, socket) := w.openSocket
    (w.dialled peer.address (.accepted socket)).next (.signal dialler (.connected (.fresh socket)))
  | .refuse => (w.dialled peer.address .refused).next (.signal dialler (.refused refusal))
  | .hang =>
    dialled peer.address (.pending w.hanging.length)
      { w with hanging := w.hanging ++ [Hanging.waiting dialler] }

def perform (dialler : Nat) (action : Action) (w : World) : World :=
  match action with
  | .dial peer => w.dial dialler peer
  | .write socket frame => w.wrote socket frame
  | .close socket => w.closeSocket socket
  | .limit duration => (w.clearLimit dialler).setTimer duration (.signal dialler .elapsed)

/-- a dialler that is done tells its owner -/
def conclude (dialler : Nat) (w : World) : World :=
  let rested := clearLimit dialler { w with diallers := w.diallers.set dialler .idle }
  match w.diallers[dialler]? with
  | some (.attempt station epoch _ (.ended outcome)) => rested.post station (outcome.event epoch)
  | some (.lone n (.done answer)) => rested.finish n (answer.map .endpoint)
  | _ => w

def performAll (dialler : Nat) (actions : List Action) (w : World) : World :=
  actions.foldl (fun w action => w.perform dialler action) w

def act (dialler : Nat) (state : Dialler) (actions : List Action) (w : World) : World :=
  (performAll dialler actions
    { w with diallers := w.diallers.set dialler state }).conclude dialler

/-- the dials that a dialler waited for are of no use to it any more -/
def abandonDials (dialler : Nat) (w : World) : World :=
  { w with hanging := w.hanging.map fun h => if h = .waiting dialler then .abandoned else h }

/-- a new dialler in its first state -/
def employ (state : Dialler) (actions : List Action) (w : World) : World :=
  act w.diallers.length state actions { w with diallers := w.diallers ++ [Dialler.idle] }

def signal (dialler : Nat) (s : Signal) (w : World) : World :=
  let w := if s = .elapsed then w.abandonDials dialler else w
  match w.diallers[dialler]? with
  | some (.attempt station epoch config a) =>
    let (a, actions) := a.step config s
    w.act dialler (.attempt station epoch config a) actions
  | some (.lone n inquiry) =>
    let (inquiry, actions) := inquiry.step s
    w.act dialler (.lone n inquiry) actions
  | _ => w

/-- a lone inquiry that nobody waits for is given up -/
def abandonInquiry (operation : Nat) (w : World) : World :=
  match w.diallers.findIdx? fun
    | .lone n _ => n == operation
    | _ => false with
  | none => w
  | some dialler =>
    match w.diallers[dialler]? with
    | some (.lone _ inquiry) =>
      (((w.performAll dialler inquiry.abandon).abandonDials dialler).clearLimit dialler).act dialler
        .idle []
    | _ => w

/-! ## what the peers do -/

/-- what there is to a dial that hangs no longer -/
inductive Settled where
  | settled (dialler : Nat)
  | abandoned
  | unknown

/-- a dial comes to its end once -/
def settle (dial : Nat) (w : World) : World × Settled :=
  let finished := { w with hanging := w.hanging.set dial .finished }
  match w.hanging[dial]? with
  | some (.waiting dialler) => (finished, .settled dialler)
  | some .abandoned => (finished, .abandoned)
  | _ => (w, .unknown)

def acceptDial (dialler : Nat) (w : World) : World :=
  let (w, socket) := w.openSocket
  w.later (.signal dialler (.connected (.fresh socket)))

/-- the inquiry of a dialler, whose stream is read by the dialler itself -/
def Dialler.reads (socket : Nat) : Dialler → Bool
  | .attempt _ _ _ (.through (.asking _ (.reading s _) _)) => s == socket
  | .lone _ (.reading s _) => s == socket
  | _ => false

/-- a socket reports to the link or the dialler that uses it -/
def hear (socket : Nat) (toLink : Nat → Event) (toDialler : Signal) (w : World) : World :=
  match w.stations.findIdx? fun s => s.link.socket?.any fun used => used.number == socket with
  | some station =>
    match w.stations[station]? with
    | some s => w.post station (toLink s.link.epoch)
    | none => w
  | none =>
    match w.diallers.findIdx? (Dialler.reads socket) with
    | some dialler => w.later (.signal dialler toDialler)
    | none => w

/-- the next frames on a socket are going to fail; a dialler has written all of its own -/
def spoil (socket : Nat) (e : Event) (w : World) : World :=
  match w.stations.findIdx? fun s => s.link.socket?.any fun used => used.number == socket with
  | some station => w.post station e
  | none => w

end World
end Testbed
end RespLink
