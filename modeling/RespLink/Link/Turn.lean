import RespLink.Link

/-!
# Turns

A link never touches the world.  What it does in answer to an event is a `Turn`: the link
afterwards and, in order, its effects: what it asks for, and what it notes of its own progress.

* `Turn.of`       nothing is asked for;
* `Turn.andThen`  one turn after another.
-/

namespace RespLink

inductive Effect where
  /-- a connect attempt of this epoch starts, through these Sentinels or else straight to the
  configured server -/
  | dial (epoch : Nat) (sentinels? : Option Sentinels)
  /-- a socket comes into use, and the index of the Sentinel that led to it, if one did -/
  | attached (epoch socket : Nat) (sentinel? : Option Nat)
  /-- a frame, and what awaits its reply from now on -/
  | wrote (socket : Nat) (w : Waiter) (frame : Bytes)
  | released (socket : Nat)
  /-- a reply that is no push meets what has waited longest, if anything waits -/
  | met (w? : Option Waiter) (reply : Reply)
  /-- all replies of a command are there -/
  | resolved (ticket : Ticket) (result : Except Error Value)
  /-- a command is given up -/
  | failed (ticket : Ticket) (err : Error)
  /-- there is nothing to disconnect from -/
  | idle (ticket : Ticket)
  | delivered (mailbox : Mailbox) (push : Push)
  /-- a retry is due in so many milliseconds -/
  | retryAfter (delay : Nat)

@[ext]
structure Turn where
  link : Link
  effects : List Effect

namespace Turn

def of (l : Link) : Turn := ⟨l, []⟩

def andThen (t : Turn) (f : Link → Turn) : Turn :=
  ⟨(f t.link).link, t.effects ++ (f t.link).effects⟩

@[simp] theorem of_andThen (l : Link) (f : Link → Turn) : (of l).andThen f = f l := by
  simp [andThen, of]

@[simp] theorem andThen_of (t : Turn) : t.andThen of = t := by
  simp [andThen, of]

theorem andThen_link (t : Turn) (f : Link → Turn) : (t.andThen f).link = (f t.link).link := rfl

theorem andThen_effects (t : Turn) (f : Link → Turn) :
    (t.andThen f).effects = t.effects ++ (f t.link).effects := rfl

theorem andThen_assoc (t : Turn) (f g : Link → Turn) :
    (t.andThen f).andThen g = t.andThen fun l => (f l).andThen g := by
  simp [andThen, List.append_assoc]

end Turn
end RespLink
