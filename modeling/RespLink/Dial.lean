import RespLink.Endpoint
import RespLink.Bytes

/-!
# Dialling

Whoever opens a byte stream asks the network for it and is told later what came of it.  Streams
are numbered by the network.

* `Socket`  a stream that is open, and how writing to it is going to fail;
* `Socket.write`  what becomes of one frame;
* `Action`  what a dialler asks for;
* `Signal`  what it is told.

A dialler sets at most one time limit at a time: setting one replaces the last.
-/

namespace RespLink

/-! ## sockets -/

/-- something that goes wrong, after so many more frames -/
structure Lapse where
  frames : Nat
  cause : IoError
deriving DecidableEq, Repr

namespace Lapse

def due? (l : Lapse) : Option IoError := if l.frames = 0 then some l.cause else none

/-- one frame later -/
def next (l : Lapse) : Lapse := { l with frames := l.frames - 1 }

end Lapse

/-- a stream that is open, by its number, and how writing to it is going to fail -/
structure Socket where
  number : Nat
  writeLapse? : Option Lapse
  flushLapse? : Option Lapse
deriving DecidableEq, Repr

/-- what became of one frame -/
structure Sent where
  socket : Socket
  written : Bool
  fault? : Option IoError
deriving DecidableEq, Repr

namespace Socket

/-- all frames are going to be written and flushed -/
def fresh (number : Nat) : Socket := ⟨number, none, none⟩

/-- a frame is written whole or not at all, then flushed -/
def write (s : Socket) : Sent :=
  match s.writeLapse?.bind Lapse.due? with
  | some cause => ⟨s, false, some cause⟩
  | none =>
    ⟨{ s with
        writeLapse? := s.writeLapse?.map Lapse.next
        flushLapse? := s.flushLapse?.map Lapse.next },
      true, s.flushLapse?.bind Lapse.due?⟩

theorem number_write (s : Socket) : s.write.socket.number = s.number := by
  unfold write
  split <;> rfl

/-- a frame that is not written is a fault -/
theorem fault_of_not_written {s : Socket} (h : s.write.written = false) :
    s.write.fault?.isSome = true := by
  unfold write at h ⊢
  split <;> simp_all

theorem written_of_sound {s : Socket} (sound : s.write.fault? = none) : s.write.written = true := by
  cases written : s.write.written with
  | true => rfl
  | false =>
    have fault := fault_of_not_written written
    rw [sound] at fault
    cases fault

end Socket

/-! ## diallers -/

inductive Action where
  | dial (peer : Endpoint)
  | write (socket : Nat) (frame : Bytes)
  | close (socket : Nat)
  /-- in milliseconds from now -/
  | limit (duration : Nat)
deriving DecidableEq, Repr

/-- the peer that is dialled -/
def Action.dial? : Action → Option Endpoint
  | dial peer => some peer
  | _ => none

inductive Signal where
  | connected (socket : Socket)
  | refused (cause : IoError)
  | heard (chunk : Bytes)
  /-- the peer closed the stream -/
  | ended
  | broken (cause : IoError)
  /-- the time limit is over -/
  | elapsed
deriving DecidableEq, Repr

/-- why a server could not be reached -/
def unreachable (peer : Endpoint) (cause : IoError) : Error :=
  .connection ("Failed to connect to " ++ peer.address ++ ": " ++ cause.text)

end RespLink
