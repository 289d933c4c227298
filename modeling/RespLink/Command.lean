import RespLink.PubSub.Registry
import RespLink.Reply.Encoder
import RespLink.Request

/-!
# Commands

A `Command` is a request bound to an encoding: the bytes to send and the account of its replies.

* `Ticket`         the number under which whoever submitted the command waits for its result;
* `ofRequest`      encodes a request; the command expects one reply;
* `accept`         takes the next reply;
* `Fresh`          the command has not met a reply;
* `result`         what the command resolves to once it is complete: the first failure among its
                   replies, else its one reply, else the array of all of them.
-/

namespace RespLink

abbrev Ticket := Nat

structure Command where
  ticket : Ticket
  verb : String
  frame : Bytes
  expected : Nat
  received : Nat
  transform : Transform
  shape : Shape
  encoding : Encoding
  /-- what the command changes in the registry when it is submitted -/
  change? : Option Change
  /-- the values of the replies taken so far, in order -/
  values : List Value
  /-- the failure of the earliest reply that had no value -/
  failure? : Option Error
deriving DecidableEq, Repr

namespace Command

def ofRequest (ticket : Ticket) (r : Request) (e : Encoding) : Command where
  ticket := ticket
  verb := r.verb
  frame := encodeCommand r.verb (r.args.map (Arg.toBytes (r.encoding e)))
  expected := 1
  received := 0
  transform := Transform.ofVerb r.verb
  shape := r.shape
  encoding := r.encoding e
  change? := none
  values := []
  failure? := none

/-- a command expects one reply at least -/
def expecting (c : Command) (replies : Nat) : Command := { c with expected := max replies 1 }

def changing (c : Command) (change : Change) : Command := { c with change? := some change }

def remaining (c : Command) : Nat := c.expected - c.received

def isQuit (c : Command) : Bool := c.verb = "QUIT"

/-! ## replies -/

def accept (c : Command) (reply : Reply) : Command :=
  match RespLink.transform reply c.transform c.shape c.encoding with
  | .ok value => { c with received := c.received + 1, values := c.values ++ [value] }
  | .error err =>
    { c with received := c.received + 1, failure? := some (c.failure?.getD err) }

theorem accept_of_ok {c : Command} {reply : Reply} {value : Value}
    (h : RespLink.transform reply c.transform c.shape c.encoding = .ok value) :
    c.accept reply = { c with received := c.received + 1, values := c.values ++ [value] } := by
  rw [accept, h]

theorem accept_of_error {c : Command} {reply : Reply} {err : Error}
    (h : RespLink.transform reply c.transform c.shape c.encoding = .error err) :
    c.accept reply =
      { c with received := c.received + 1, failure? := some (c.failure?.getD err) } := by
  rw [accept, h]

@[simp] theorem ticket_accept (c : Command) (reply : Reply) :
    (c.accept reply).ticket = c.ticket := by
  unfold accept; split <;> rfl

@[simp] theorem expected_accept (c : Command) (reply : Reply) :
    (c.accept reply).expected = c.expected := by
  unfold accept; split <;> rfl

@[simp] theorem received_accept (c : Command) (reply : Reply) :
    (c.accept reply).received = c.received + 1 := by
  unfold accept; split <;> rfl

def complete (c : Command) : Bool := decide (c.expected ≤ c.received)

def succeeded (c : Command) : Bool := c.failure?.isNone

def result (c : Command) : Except Error Value :=
  match c.failure? with
  | some err => .error err
  | none =>
    if c.expected = 1 then .ok (c.values.getLast?.getD .nil) else .ok (.array c.values)

/-! ## fresh commands -/

/-- no reply has come, and one at least is expected -/
structure Fresh (c : Command) : Prop where
  expected : 1 ≤ c.expected
  received : c.received = 0
  values : c.values = []
  failure : c.failure? = none

instance (c : Command) : Decidable c.Fresh :=
  decidable_of_iff
    (1 ≤ c.expected ∧ c.received = 0 ∧ c.values = [] ∧ c.failure? = none)
    ⟨fun h => ⟨h.1, h.2.1, h.2.2.1, h.2.2.2⟩,
      fun h => ⟨h.expected, h.received, h.values, h.failure⟩⟩

theorem fresh_ofRequest (ticket : Ticket) (r : Request) (e : Encoding) :
    (ofRequest ticket r e).Fresh :=
  ⟨Nat.le_refl 1, rfl, rfl, rfl⟩

theorem Fresh.expecting {c : Command} (h : c.Fresh) (replies : Nat) : (c.expecting replies).Fresh :=
  ⟨Nat.le_max_right replies 1, h.received, h.values, h.failure⟩

theorem Fresh.changing {c : Command} (h : c.Fresh) (change : Change) : (c.changing change).Fresh :=
  ⟨h.expected, h.received, h.values, h.failure⟩

/-! ## text in messages -/

def quoted (c : Command) : String :=
  "Command \x7b verb: " ++ Quoted.text c.verb
    ++ ", expected_replies: " ++ Numeral.ofNat c.expected
    ++ ", received: " ++ Numeral.ofNat c.received
    ++ ", transform: " ++ c.transform.name
    ++ ", return_type: " ++ c.shape.name ++ ", .. \x7d"

end Command
end RespLink
