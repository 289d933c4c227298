import RespLink.Link.Greeting

/-!
# Receiving

Replies come in the order of what was written.  On a link for subscriptions, pushes are taken out
first; a reply that nothing awaits is dropped.

* `accept`    one reply, for whatever has waited longest;
* `onReply`   one reply or push;
* `receive`   a chunk of bytes; a fault in it comes after the replies before it.
-/

namespace RespLink
namespace Link

/-- a completed `QUIT` that did not fail ends the connection before it resolves -/
def complete (c : Command) (l : Link) : Turn :=
  (if c.isQuit && c.succeeded then l.closeGracefully else .of l).andThen fun l =>
    ⟨l, [.resolved c.ticket c.result]⟩

def accept (reply : Reply) (l : Link) : Turn :=
  match l.waiting with
  | [] => .of l
  | .handshake h :: rest => answered h reply { l with waiting := rest }
  | .command c :: rest =>
    if (c.accept reply).complete then complete (c.accept reply) { l with waiting := rest }
    else .of { l with waiting := .command (c.accept reply) :: rest }

/-- the push that a reply is on this link -/
def push? (reply : Reply) (l : Link) : Option Push :=
  match l.role with
  | .command => none
  | .pubsub => Push.read l.config.encoding reply

def onReply (reply : Reply) (l : Link) : Turn :=
  match l.push? reply with
  | some push =>
    ⟨l, (l.registry.destination? push).toList.map fun mailbox => .delivered mailbox push⟩
  | none =>
    let met : Turn := ⟨l, [.met l.waiting.head? reply]⟩
    met.andThen (accept reply)

/-- replies of the socket of an epoch, as long as that socket is in use -/
def onReplies (epoch : Nat) : List Reply → Link → Turn
  | [], l => .of l
  | reply :: rest, l =>
    if l.epoch = epoch then (l.onReply reply).andThen (onReplies epoch rest) else .of l

theorem onReplies_append (epoch : Nat) (before later : List Reply) (l : Link) :
    onReplies epoch (before ++ later) l =
      (onReplies epoch before l).andThen (onReplies epoch later) := by
  induction before generalizing l with
  | nil => exact (Turn.of_andThen l _).symm
  | cons reply rest ih =>
    rw [List.cons_append, onReplies, onReplies]
    split
    · rw [Turn.andThen_assoc]
      congr 1
      funext m
      exact ih m
    · next other =>
      rw [Turn.of_andThen]
      cases later with
      | nil => rfl
      | cons => exact (if_neg other).symm

def onFault (epoch : Nat) (fault : Option Malformed) (l : Link) : Turn :=
  match fault with
  | some why => if l.epoch = epoch then l.fail why.toError false else .of l
  | none => .of l

def receive (chunk : Bytes) (l : Link) : Turn :=
  let fed := l.parser.feed chunk
  (onReplies l.epoch fed.replies { l with parser := fed.parser }).andThen
    (onFault l.epoch fed.fault)

end Link
end RespLink
