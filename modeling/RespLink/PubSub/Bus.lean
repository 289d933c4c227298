import RespLink.Fields
import RespLink.PubSub.Announcement

/-!
# A local bus

Listeners hear what is published at their address from the moment they start to listen.

* `Listener`  its address, whether it still accepts messages, and those it has not received yet;
* `Bus`       every listener ever, numbered from 0, and for each address the listeners in the order
              in which they came.

A listener that was closed or dropped is struck off its address by the next message published
there; an address without listeners is forgotten.
-/

namespace RespLink

inductive Hearing where
  | hears
  /-- accepts nothing more; what it has not received yet is still there -/
  | closed
  | dropped
deriving DecidableEq, Repr

structure Listener where
  address : String
  hearing : Hearing
  waiting : List Announcement
deriving DecidableEq, Repr

structure Bus where
  listeners : List Listener
  addresses : Fields (List Nat)
deriving DecidableEq, Repr

/-- what a listener finds when it looks for a message -/
inductive Received where
  | message (a : Announcement)
  | empty
  | closed
deriving DecidableEq, Repr

namespace Bus

def start : Bus := ⟨[], []⟩

def hears (b : Bus) (n : Nat) : Bool :=
  match b.listeners[n]? with
  | some l => l.hearing == .hears
  | none => false

def update (b : Bus) (n : Nat) (f : Listener → Listener) : Bus :=
  { b with listeners := b.listeners.modify n f }

/-- the bus with a new listener, and its number -/
def listen (b : Bus) (address : String) : Bus × Nat :=
  let n := b.listeners.length
  (⟨b.listeners ++ [⟨address, .hears, []⟩],
    b.addresses.insert address ((b.addresses.get? address).getD [] ++ [n])⟩, n)

def listenerCount (b : Bus) (address : String) : Nat :=
  (((b.addresses.get? address).getD []).filter b.hears).length

def deliver (b : Bus) (a : Announcement) (ns : List Nat) : Bus :=
  ns.foldl (fun b n => b.update n fun l => { l with waiting := l.waiting ++ [a] }) b

def publish (b : Bus) (address : String) (a : Announcement) : Bus :=
  match b.addresses.get? address with
  | none => b
  | some ns =>
    let live := ns.filter b.hears
    let told := b.deliver a live
    { told with addresses :=
        if live.isEmpty then b.addresses.erase address else b.addresses.insert address live }

def close (b : Bus) (n : Nat) : Bus :=
  b.update n fun l => if l.hearing = .hears then { l with hearing := .closed } else l

def drop (b : Bus) (n : Nat) : Bus :=
  b.update n fun l => { l with hearing := .dropped, waiting := [] }

def receive (b : Bus) (n : Nat) : Bus × Received :=
  match b.listeners[n]? with
  | none => (b, .closed)
  | some l =>
    match l.waiting with
    | a :: rest => (b.update n fun l => { l with waiting := rest }, .message a)
    | [] => (b, if l.hearing = .hears then .empty else .closed)

end Bus
end RespLink
