import RespLink.Link.Turn

/-!
# Losing a socket

When a link fails, every command that it holds resolves with the cause, those that were written
first; the socket is released, and what the server knew of this link is forgotten.

* `teardown`          the whole of it;
* `fail`              a teardown if the link is active, and a retry if one makes sense;
* `closeGracefully`   a teardown of a connected link whose server agreed to part.
-/

namespace RespLink
namespace Link

def failures (err : Error) (commands : List Command) : List Effect :=
  commands.map fun c => .failed c.ticket err

def failWaiting (err : Error) (l : Link) : Turn :=
  ⟨{ l with waiting := [] }, failures err l.waitingCommands⟩

def failPending (err : Error) (l : Link) : Turn :=
  ⟨{ l with pending := [] }, failures err l.pending⟩

/-- whatever the old socket still reports belongs to a past epoch from here on -/
def release (l : Link) : Turn :=
  ⟨{ l with socket? := none, epoch := l.epoch + 1, parser := .empty },
    l.socket?.toList.map fun s => .released s.number⟩

/-- fails both queues, each command with a duplicate of the error, and lets go of the socket -/
def drain (err : Error) (l : Link) : Turn :=
  ((l.failWaiting err.duplicate).andThen (failPending err.duplicate)).andThen release

/-- the server forgets every subscription with the socket -/
def teardown (err : Error) (l : Link) : Turn :=
  (drain err { l with phase := .failed }).andThen fun l =>
    .of { l with registry := .empty, phase := .disconnected }

theorem teardown_link (err : Error) (l : Link) :
    (l.teardown err).link =
      { l with
        phase := .disconnected, epoch := l.epoch + 1, pending := [], waiting := [],
        parser := .empty, socket? := none, registry := .empty } := rfl

/-- commands that were written fail first, then those that were not, then the socket goes -/
theorem teardown_effects (err : Error) (l : Link) :
    (l.teardown err).effects =
      failures err (l.waitingCommands ++ l.pending)
        ++ l.socket?.toList.map fun s => .released s.number := by
  simp [teardown, drain, failWaiting, failPending, release, failures, Turn.andThen, Turn.of,
    waitingCommands]

def fail (err : Error) (retry : Bool) (l : Link) : Turn :=
  if l.phase.isActive then
    (l.teardown err).andThen fun l =>
      ⟨l, if retry then [.retryAfter l.config.retryInterval] else []⟩
  else .of l

theorem fail_of_not_active {l : Link} (h : l.phase.isActive = false) (err : Error)
    (retry : Bool) : l.fail err retry = .of l := by
  simp [fail, h]

theorem fail_of_active {l : Link} (h : l.phase.isActive = true) (err : Error) (retry : Bool) :
    l.fail err retry =
      ⟨(l.teardown err).link,
        (l.teardown err).effects ++ if retry then [.retryAfter l.config.retryInterval] else []⟩ := by
  simp [fail, h, Turn.andThen, teardown_link]

def closeGracefully (l : Link) : Turn :=
  if l.phase = .connected then l.teardown (.connection "Connection closed") else .of l

end Link
end RespLink
