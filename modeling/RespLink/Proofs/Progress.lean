import RespLink.Proofs.Turns

/-!
# How far a turn goes

A handler that loses the connection does so at one place, and nothing of its work comes after that.
Here each handler is told up to that place, with the reason for the end as a value.

* `Cause`      why a connection fails: the error, and whether a retry makes sense;
* `End`        how a connection ends: it fails, the server agrees to part, or the link is dropped;
* `letGo`      the part of a turn from the end on; it is the same for all places (`letGo_effects`);
* `Progress`   a turn without an end, or the turn up to an end; `andThen` stops at the first end;
* `progress`   what an event sets off on an active link, each handler written in this form;
* `Tells`      progress adds up to the turn, and up to the end the connection lasts and nothing is
               asked for; one lemma a handler, and `tells_step` for all events.
-/

namespace RespLink

/-! ## ends -/

inductive Cause where
  /-- the connect attempt came to nothing -/
  | unreachable (err : Error) (retry : Bool)
  /-- the peer closed the socket -/
  | closed
  | unread (cause : IoError)
  | unwritten (cause : IoError)
  | malformed (why : Malformed)
  /-- the password was rejected -/
  | password (text : String)
  /-- the peer that a Sentinel named is no master -/
  | notMaster
  /-- the database was rejected -/
  | database (text : String)
deriving DecidableEq

namespace Cause

def error : Cause → Error
  | unreachable err _ => err
  | closed => .connection "Connection closed by peer"
  | unread cause | unwritten cause => .io cause
  | malformed why => why.toError
  | password text => .auth text
  | notMaster => .sentinel "Resolved peer is not a master"
  | database text => .server text

def retries : Cause → Bool
  | unreachable _ retry => retry
  | notMaster => true
  | _ => false

theorem retries_iff (why : Cause) :
    why.retries = true ↔ why = notMaster ∨ ∃ err, why = unreachable err true := by
  cases why with
  | unreachable err retry => simp [retries]
  | _ => simp [retries]

end Cause

inductive End where
  | lost (why : Cause)
  /-- the server agrees to part: this command succeeded -/
  | parted (c : Command)
  /-- the last handle is gone -/
  | dropped
deriving DecidableEq

namespace End

/-- what the commands on hand fail with -/
def error : End → Error
  | lost why => why.error
  | parted _ => .connection "Connection closed"
  | dropped => .connection "Connection dropped"

/-- what follows once the socket is released -/
def closing (config : Config) : End → List Effect
  | lost why => if why.retries then [.retryAfter config.retryInterval] else []
  | parted c => [.resolved c.ticket c.result]
  | dropped => []

end End

/-- why the link fails when a step of the handshake gets this reply, if it does -/
def Handshake.refusal? : Handshake → Reply → Option Cause
  | .auth _, .error text => some (.password text)
  | .auth _, _ => none
  | .role _, reply => if reply.isMaster then none else some .notMaster
  | .select, .error text => some (.database text)
  | .select, _ => none

namespace Link

/-- a link without a connection -/
structure AtRest (l : Link) : Prop where
  phase : l.phase = .disconnected
  pending : l.pending = []
  waiting : l.waiting = []
  parser : l.parser = .empty
  socket : l.socket? = none

def letGo : End → Link → Turn
  | .lost why, l => l.fail why.error why.retries
  | .parted c, l => (l.teardown (.connection "Connection closed")).andThen fun l =>
    ⟨l, [.resolved c.ticket c.result]⟩
  | .dropped, l => l.shutdown

section
variable {l m : Link} {t : Turn}

theorem letGo_effects (active : l.phase.isActive = true) (d : End) :
    (l.letGo d).effects = failures d.error (l.waitingCommands ++ l.pending)
      ++ (l.socket?.toList.map fun s => .released s.number) ++ d.closing l.config := by
  cases d with
  | lost why =>
    show (l.fail why.error why.retries).effects = _
    rw [fail_of_active active, teardown_effects]
    rfl
  | parted c =>
    show (l.teardown _).effects ++ _ = _
    rw [teardown_effects]
    rfl
  | dropped =>
    show l.shutdown.effects = _
    rw [shutdown_effects]
    exact (List.append_nil _).symm

theorem letGo_lost (active : l.phase.isActive = true) (why : Cause) :
    (l.letGo (.lost why)).link =
      { l with
        phase := .disconnected, epoch := l.epoch + 1, pending := [], waiting := [],
        parser := .empty, socket? := none, registry := .empty } := by
  show (l.fail why.error why.retries).link = _
  rw [fail_of_active active]
  rfl

theorem letGo_rests (active : l.phase.isActive = true) (d : End) :
    (l.letGo d).link.AtRest ∧ (l.letGo d).link.epoch = l.epoch + 1 := by
  cases d with
  | lost why =>
    rw [letGo_lost active]
    exact ⟨⟨rfl, rfl, rfl, rfl, rfl⟩, rfl⟩
  | parted | dropped => exact ⟨⟨rfl, rfl, rfl, rfl, rfl⟩, rfl⟩

theorem letGo_attempts (active : l.phase.isActive = true) (d : End) :
    (l.letGo d).link.attempts = l.attempts := by
  cases d with
  | lost why => rw [letGo_lost active]
  | parted | dropped => rfl

end
end Link

/-- nothing more is done -/
theorem Turn.andThen_idle {t : Turn} {g : Link → Turn} (idle : g t.link = .of t.link) :
    t.andThen g = t := by
  rw [Turn.andThen, idle, Turn.of, List.append_nil]

/-! ## progress -/

inductive Progress where
  /-- to the end of the turn -/
  | through (t : Turn)
  /-- to the end of the connection -/
  | upTo (t : Turn) (d : End)

namespace Progress

/-- what happens, but for the end of the connection -/
def turn : Progress → Turn
  | through t | upTo t _ => t

def whole : Progress → Turn
  | through t => t
  | upTo t d => t.andThen (Link.letGo d)

def andThen (x : Progress) (f : Link → Progress) : Progress :=
  match x with
  | through t =>
    match f t.link with
    | through u => through ⟨u.link, t.effects ++ u.effects⟩
    | upTo u d => upTo ⟨u.link, t.effects ++ u.effects⟩ d
  | upTo t d => upTo t d

@[simp] theorem turn_through (t : Turn) : (through t).turn = t := rfl

@[simp] theorem turn_upTo (t : Turn) (d : End) : (upTo t d).turn = t := rfl

@[simp] theorem upTo_andThen (t : Turn) (d : End) (f : Link → Progress) :
    (upTo t d).andThen f = upTo t d := rfl

/-- what is done before the connection ends -/
theorem through_andThen_of_upTo {t u : Turn} {d : End} {f : Link → Progress}
    (later : f t.link = .upTo u d) :
    (through t).andThen f = .upTo ⟨u.link, t.effects ++ u.effects⟩ d := by
  rw [andThen, later]

theorem turn_through_andThen (t : Turn) (f : Link → Progress) :
    ((through t).andThen f).turn = t.andThen fun l => (f l).turn := by
  rw [andThen]
  cases h : f t.link <;> simp [Turn.andThen, h]

theorem whole_through_andThen (t : Turn) (f : Link → Progress) :
    ((through t).andThen f).whole = t.andThen fun l => (f l).whole := by
  rw [andThen]
  cases h : f t.link <;> simp [whole, Turn.andThen, h]

end Progress

namespace Link

/-! ## handlers -/

def writing (w : Waiter) (frame : Bytes) (l : Link) : Progress :=
  let awaiting := { l with waiting := l.waiting ++ [w] }
  match l.socket? with
  | none => .upTo (.of awaiting) (.lost (.unwritten ⟨"NotConnected", "socket not attached"⟩))
  | some s =>
    let t : Turn := ⟨{ awaiting with socket? := some s.write.socket },
      if s.write.written then [.wrote s.number w frame] else []⟩
    match s.write.fault? with
    | none => .through t
    | some cause => .upTo t (.lost (.unwritten cause))

def flushing : List Command → Link → Progress
  | [], l => .through (.of l)
  | c :: rest, l =>
    (writing (.command c) c.frame { l with pending := rest }).andThen (flushing rest)

def proceeding : List (Handshake × Bytes) → Link → Progress
  | [], l => flushing l.pending { l with phase := .connected }
  | (h, frame) :: _, l => l.writing (.handshake h) frame

def attaching (socket : Socket) (sentinel? : Option Nat) (l : Link) : Progress :=
  (Progress.through ⟨l.holding socket, .attached l.epoch socket.number sentinel? ::
    failures (.connection "Connection lost") l.waitingCommands⟩).andThen
      (proceeding (l.config.greeting sentinel?))

def accepting (reply : Reply) (l : Link) : Progress :=
  match l.waiting with
  | [] => .through (.of l)
  | .handshake h :: rest =>
    match h.refusal? reply with
    | some why => .upTo (.of { l with waiting := rest }) (.lost why)
    | none => proceeding (l.config.stepsAfter h)
        { l with waiting := rest, sentinels := h.promote l.sentinels }
  | .command c :: rest =>
    let c := c.accept reply
    if c.complete then
      if c.isQuit && c.succeeded then .upTo (.of { l with waiting := rest }) (.parted c)
      else .through ⟨{ l with waiting := rest }, [.resolved c.ticket c.result]⟩
    else .through (.of { l with waiting := .command c :: rest })

def replying (reply : Reply) (l : Link) : Progress :=
  match l.push? reply with
  | some push =>
    .through
      ⟨l, (l.registry.destination? push).toList.map fun mailbox => .delivered mailbox push⟩
  | none => (Progress.through ⟨l, [.met l.waiting.head? reply]⟩).andThen (accepting reply)

def hearing : List Reply → Link → Progress
  | [], l => .through (.of l)
  | reply :: rest, l => (l.replying reply).andThen (hearing rest)

def faulting (fault : Option Malformed) (l : Link) : Progress :=
  match fault with
  | some why => .upTo (.of l) (.lost (.malformed why))
  | none => .through (.of l)

def receiving (chunk : Bytes) (l : Link) : Progress :=
  let fed := l.parser.feed chunk
  (hearing fed.replies { l with parser := fed.parser }).andThen (faulting fed.fault)

def queueing (c : Command) (l : Link) : Progress :=
  if l.phase = .connected then l.writing (.command c) c.frame
  else .through (.of { l with pending := l.pending ++ [c] })

def sending (c : Command) (l : Link) : Progress :=
  match c.change?, l.role with
  | none, _ => l.queueing c
  | some _, .command =>
    .through ⟨l, failures (.config (c.verb ++ " must be sent on the pub/sub connection")) [c]⟩
  | some change, .pubsub =>
    queueing (c.expecting (l.registry.apply change).2)
      { l with registry := (l.registry.apply change).1 }

/-- what an event sets off on an active link -/
def progress (l : Link) : Event → Progress
  | .send c => l.sending c
  | .disconnect t => l.sending (Command.ofRequest t quit l.config.encoding)
  | .attached epoch socket sentinel? =>
    if l.epoch = epoch ∧ l.phase = .connecting then l.attaching socket sentinel?
    else .through ⟨l, [.released socket.number]⟩
  | .connectFailed epoch err retry =>
    if l.epoch = epoch then .upTo (.of l) (.lost (.unreachable err retry)) else .through (.of l)
  | .data epoch chunk => if l.epoch = epoch then l.receiving chunk else .through (.of l)
  | .closed epoch => if l.epoch = epoch then .upTo (.of l) (.lost .closed) else .through (.of l)
  | .readFailed epoch cause =>
    if l.epoch = epoch then .upTo (.of l) (.lost (.unread cause)) else .through (.of l)
  | .retry => .through (.of l)
  | .writesFail frames cause => .through (.of
      { l with socket? := l.socket?.map fun s => { s with writeLapse? := some ⟨frames, cause⟩ } })
  | .flushesFail frames cause => .through (.of
      { l with socket? := l.socket?.map fun s => { s with flushLapse? := some ⟨frames, cause⟩ } })
  | .shutdown => .upTo (.of l) .dropped

theorem progress_closed {l : Link} {epoch : Nat} (current : l.epoch = epoch) :
    l.progress (.closed epoch) = .upTo (.of l) (.lost .closed) := if_pos current

/-! ## telling a turn -/

end Link

/-- asks for something later: a connect attempt, or a retry -/
def Effect.isAsking : Effect → Bool
  | dial .. | retryAfter _ => true
  | _ => false

theorem quiet_one {x : Effect} (quiet : x.isAsking = false) : ∀ y ∈ [x], y.isAsking = false := by
  intro y hy
  rw [List.mem_singleton.mp hy]
  exact quiet

namespace Link

theorem quiet_failures (err : Error) (cs : List Command) :
    ∀ x ∈ failures err cs, x.isAsking = false := by
  intro x hx
  obtain ⟨c, _, rfl⟩ := List.mem_map.mp hx
  rfl

/-- the connection is the same, and at most the handshake has come to its end since -/
structure Lasts (l m : Link) : Prop where
  epoch : m.epoch = l.epoch
  attempts : m.attempts = l.attempts
  stopped : m.stopped = l.stopped
  config : m.config = l.config
  phase : m.phase = l.phase ∨ l.phase = .connecting ∧ m.phase = .connected

/-- progress that adds up to a turn; up to an end the connection lasts and nothing is asked for -/
structure Tells (l : Link) (x : Progress) (t : Turn) : Prop where
  whole : x.whole = t
  lasts : Lasts l x.turn.link
  quiet : ∀ e ∈ x.turn.effects, e.isAsking = false
  /-- a retry is for the handshake only -/
  retries : ∀ u why, x = .upTo u (.lost why) → why.retries = true → l.phase = .connecting

section
variable {l m n : Link} {x : Progress} {t u : Turn} {f : Link → Progress} {g : Link → Turn}

theorem Lasts.of_same (epoch : m.epoch = l.epoch) (attempts : m.attempts = l.attempts)
    (stopped : m.stopped = l.stopped) (config : m.config = l.config) (phase : m.phase = l.phase) :
    Lasts l m := ⟨epoch, attempts, stopped, config, .inl phase⟩

theorem Lasts.connecting (h : Lasts l m) (was : m.phase = .connecting) : l.phase = .connecting := by
  rcases h.phase with same | ⟨phase, _⟩
  · exact same.symm.trans was
  · exact phase

theorem Lasts.connected (h : Lasts l m) (was : l.phase = .connected) : m.phase = .connected := by
  rcases h.phase with same | ⟨_, now⟩
  · exact same.trans was
  · exact now

theorem Lasts.active (h : Lasts l m) (active : l.phase.isActive = true) :
    m.phase.isActive = true := by
  rcases h.phase with same | ⟨_, now⟩
  · rw [same]
    exact active
  · rw [now]
    rfl

theorem Lasts.trans (a : Lasts l m) (b : Lasts m n) : Lasts l n where
  epoch := b.epoch.trans a.epoch
  attempts := b.attempts.trans a.attempts
  stopped := b.stopped.trans a.stopped
  config := b.config.trans a.config
  phase := by
    rcases b.phase with same | ⟨was, now⟩
    · rw [same]
      exact a.phase
    · exact .inr ⟨a.connecting was, now⟩

/-- nothing ends -/
theorem Tells.through (lasts : Lasts l t.link) (quiet : ∀ e ∈ t.effects, e.isAsking = false) :
    Tells l (.through t) t :=
  ⟨rfl, lasts, quiet, fun _ _ h => nomatch h⟩

/-- nothing happens -/
theorem Tells.of (lasts : Lasts l m) : Tells l (.through (.of m)) (.of m) :=
  .through lasts (List.forall_mem_nil _)

/-- the connection ends here -/
theorem Tells.upTo {d : End} (whole : u.andThen (letGo d) = t) (lasts : Lasts l u.link)
    (quiet : ∀ e ∈ u.effects, e.isAsking = false)
    (retries : ∀ why, d = .lost why → why.retries = true → l.phase = .connecting) :
    Tells l (.upTo u d) t :=
  ⟨whole, lasts, quiet, fun _ why h => by cases h; exact retries why rfl⟩

theorem Tells.from (h : Tells m x t) (lasts : Lasts l m) : Tells l x t :=
  ⟨h.whole, lasts.trans h.lasts, h.quiet, fun u why e r => lasts.connecting (h.retries u why e r)⟩

/-- what is done before all else -/
theorem Tells.after (lasts : Lasts l u.link) (quiet : ∀ e ∈ u.effects, e.isAsking = false)
    (later : Tells u.link (f u.link) (g u.link)) :
    Tells l ((Progress.through u).andThen f) (u.andThen g) where
  whole := by rw [Progress.whole_through_andThen, Turn.andThen, Turn.andThen, later.whole]
  lasts := by
    rw [Progress.turn_through_andThen]
    exact lasts.trans later.lasts
  quiet := by
    rw [Progress.turn_through_andThen]
    intro e he
    exact (List.mem_append.mp he).elim (quiet e) (later.quiet e)
  retries := by
    intro v why e retries
    rw [Progress.andThen] at e
    cases next : f u.link with
    | through w => rw [next] at e; cases e
    | upTo w d =>
      rw [next] at e
      cases e
      exact lasts.connecting (later.retries w why next retries)

/-- what is done unless the connection has ended -/
theorem Tells.andThen (h : Tells l x t) (active : l.phase.isActive = true)
    (on : ∀ u, x = .through u → Tells u.link (f u.link) (g u.link))
    (off : ∀ m, m.AtRest → m.epoch ≠ l.epoch → g m = .of m) :
    Tells l (x.andThen f) (t.andThen g) := by
  obtain ⟨rfl, lasts, quiet, retries⟩ := h
  cases x with
  | through u => exact .after lasts quiet (on u rfl)
  | upTo u d =>
    refine ⟨?_, lasts, quiet, retries⟩
    obtain ⟨rests, next⟩ := letGo_rests (lasts.active active) d
    have other : (u.link.letGo d).link.epoch ≠ l.epoch := by
      rw [← lasts.epoch]
      exact Nat.ne_of_gt (next ▸ Nat.lt_succ_self _)
    exact (Turn.andThen_idle (t := u.andThen (letGo d)) (off _ rests other)).symm

/-! ## sending -/

theorem tells_write (l : Link) (w : Waiter) (frame : Bytes) :
    Tells l (l.writing w frame) (l.write w frame) := by
  have lasting (cause : IoError) :
      ∀ why, End.lost (.unwritten cause) = .lost why → why.retries = true →
        l.phase = .connecting := by
    intro why e retries
    cases e
    cases retries
  rw [writing, write]
  cases l.socket? with
  | none =>
    exact .upTo (Turn.of_andThen _ _) (.of_same rfl rfl rfl rfl rfl) (List.forall_mem_nil _)
      (lasting _)
  | some s =>
    have quiet : ∀ e ∈ (if s.write.written then [Effect.wrote s.number w frame] else []),
        e.isAsking = false := by
      split <;> simp [Effect.isAsking]
    cases fault : s.write.fault? with
    | none => simpa only [fault] using .through (.of_same rfl rfl rfl rfl rfl) quiet
    | some cause =>
      simpa only [fault] using .upTo rfl (.of_same rfl rfl rfl rfl rfl) quiet (lasting cause)

theorem tells_flush (phase : l.phase = .connected) (cs : List Command) :
    Tells l (flushing cs l) (flush cs l) := by
  induction cs generalizing l with
  | nil => exact .of (.of_same rfl rfl rfl rfl rfl)
  | cons c rest ih =>
    have written := tells_write { l with pending := rest } (.command c) c.frame
    rw [flushing, flush, if_pos phase]
    refine Tells.from (m := { l with pending := rest }) ?_ (.of_same rfl rfl rfl rfl rfl)
    refine written.andThen ?_ ?_ ?_
    · show l.phase.isActive = true
      rw [phase]
      rfl
    · intro u e
      have lasts := written.lasts
      rw [e] at lasts
      exact ih (lasts.connected phase)
    · intro m rests _
      exact flush_of_not_connected (by rw [rests.phase]; decide) rest

/-! ## the handshake -/

theorem tells_proceed (phase : l.phase = .connecting) (steps : List (Handshake × Bytes)) :
    Tells l (proceeding steps l) (proceed steps l) := by
  cases steps with
  | nil =>
    rw [proceeding, proceed, finishHandshake, if_pos phase]
    exact (tells_flush (l := { l with phase := .connected }) rfl l.pending).from
      ⟨rfl, rfl, rfl, rfl, .inr ⟨phase, rfl⟩⟩
  | cons step steps => exact tells_write l (.handshake step.1) step.2

theorem attach_eq (l : Link) (socket : Socket) (sentinel? : Option Nat) :
    l.attach socket sentinel? = Turn.andThen
      ⟨l.holding socket, .attached l.epoch socket.number sentinel? ::
        failures (.connection "Connection lost") l.waitingCommands⟩
        (proceed (l.config.greeting sentinel?)) := by
  show Turn.mk (beginAuth sentinel? (l.holding socket)).link
    (_ :: failures _ l.waitingCommands ++ (beginAuth sentinel? (l.holding socket)).effects) = _
  rw [beginAuth_eq]
  rfl

theorem tells_attach (phase : l.phase = .connecting) (socket : Socket) (sentinel? : Option Nat) :
    Tells l (l.attaching socket sentinel?) (l.attach socket sentinel?) := by
  rw [attaching, attach_eq]
  refine .after (.of_same rfl rfl rfl rfl rfl) ?_ (tells_proceed (l := l.holding socket) phase _)
  exact List.forall_mem_cons.mpr ⟨rfl, quiet_failures _ _⟩

/-- a step of the handshake is refused, or the next one is due -/
theorem answered_eq (h : Handshake) (reply : Reply) (l : Link) :
    answered h reply l = match h.refusal? reply with
      | some why => l.fail why.error why.retries
      | none => proceed (l.config.stepsAfter h)
          { l with sentinels := h.promote l.sentinels } := by
  cases passes : h.passes reply with
  | true =>
    have accepted : h.refusal? reply = none := by
      cases h with
      | role i => exact if_pos passes
      | _ => cases reply <;> first | rfl | cases passes
    rw [accepted]
    exact answered_of_passes passes l
  | false =>
    cases h with
    | role i =>
      have other : ¬ reply.isMaster = true := by
        rw [show reply.isMaster = false from passes]
        decide
      rw [Handshake.refusal?, if_neg other]
      exact if_neg other
    | _ => cases reply <;> first | rfl | cases passes

theorem tells_answer (phase : l.phase = .connecting) (h : Handshake) (reply : Reply) :
    Tells l (match h.refusal? reply with
      | some why => .upTo (.of l) (.lost why)
      | none => proceeding (l.config.stepsAfter h) { l with sentinels := h.promote l.sentinels })
      (answered h reply l) := by
  rw [answered_eq]
  cases h.refusal? reply with
  | some why =>
    exact .upTo (Turn.of_andThen _ _) (.of_same rfl rfl rfl rfl rfl) (List.forall_mem_nil _)
      fun _ _ _ => phase
  | none =>
    exact (tells_proceed (l := { l with sentinels := h.promote l.sentinels }) phase _).from
      (.of_same rfl rfl rfl rfl rfl)

/-! ## receiving -/

theorem tells_complete (phase : l.phase = .connected) (c : Command) :
    Tells l (if c.isQuit && c.succeeded then .upTo (.of l) (.parted c)
      else .through ⟨l, [.resolved c.ticket c.result]⟩) (complete c l) := by
  rw [complete, closeGracefully, if_pos phase]
  split
  · exact .upTo (Turn.of_andThen _ _) (.of_same rfl rfl rfl rfl rfl) (List.forall_mem_nil _)
      fun _ e => by cases e
  · rw [Turn.of_andThen]
    exact .through (.of_same rfl rfl rfl rfl rfl) (quiet_one rfl)

theorem tells_accept (settled : Settled l) (reply : Reply) :
    Tells l (l.accepting reply) (l.accept reply) := by
  rw [accepting, accept]
  cases front : l.waiting with
  | nil => exact .of (.of_same rfl rfl rfl rfl rfl)
  | cons w rest =>
    cases w with
    | handshake h =>
      obtain ⟨phase, _⟩ := settled.connecting_of_handshake front
      exact (tells_answer (l := { l with waiting := rest }) phase h reply).from
        (.of_same rfl rfl rfl rfl rfl)
    | command c =>
      have phase := settled.connected_of_command front
      show Tells l (if _ then _ else _) (if _ then _ else _)
      by_cases last : (c.accept reply).complete = true
      · rw [if_pos last, if_pos last]
        exact (tells_complete (l := { l with waiting := rest }) phase (c.accept reply)).from
          (.of_same rfl rfl rfl rfl rfl)
      · rw [if_neg last, if_neg last]
        exact .of (.of_same rfl rfl rfl rfl rfl)

theorem tells_onReply (settled : Settled l) (reply : Reply) :
    Tells l (l.replying reply) (l.onReply reply) := by
  rw [replying, onReply]
  cases l.push? reply with
  | some push =>
    refine .through (.of_same rfl rfl rfl rfl rfl) fun e he => ?_
    obtain ⟨mailbox, _, rfl⟩ := List.mem_map.mp he
    rfl
  | none =>
    exact .after (.of_same rfl rfl rfl rfl rfl) (quiet_one rfl) (tells_accept settled reply)

/-- the link is settled again after a turn without an end -/
theorem Tells.settled {ins : List Intake} (h : Tells l (.through u) t) (lead : Leads l ins t) :
    Settled u.link := by
  rw [show u = t from h.whole]
  exact lead.2

theorem tells_onReplies (settled : Settled l) (active : l.phase.isActive = true) {epoch : Nat}
    (current : l.epoch = epoch) (replies : List Reply) :
    Tells l (hearing replies l) (onReplies epoch replies l) := by
  induction replies generalizing l with
  | nil => exact .of (.of_same rfl rfl rfl rfl rfl)
  | cons reply rest ih =>
    have first := tells_onReply settled reply
    rw [hearing, onReplies, if_pos current]
    refine first.andThen active ?_ ?_
    · intro u e
      rw [e] at first
      exact ih (first.settled (onReply_leads settled reply)) (first.lasts.active active)
        (first.lasts.epoch.trans current)
    · intro m _ other
      cases rest with
      | nil => rfl
      | cons reply rest => exact if_neg (current ▸ other)

theorem tells_onFault {epoch : Nat} (current : l.epoch = epoch) (fault : Option Malformed) :
    Tells l (l.faulting fault) (onFault epoch fault l) := by
  cases fault with
  | none => exact .of (.of_same rfl rfl rfl rfl rfl)
  | some why =>
    rw [onFault, if_pos current]
    exact .upTo (Turn.of_andThen _ _) (.of_same rfl rfl rfl rfl rfl) (List.forall_mem_nil _)
      fun _ e r => by cases e; cases r

theorem tells_receive (settled : Settled l) (active : l.phase.isActive = true) (chunk : Bytes) :
    Tells l (l.receiving chunk) (l.receive chunk) := by
  have fed : Settled { l with parser := (l.parser.feed chunk).parser } := { settled with }
  have heard := tells_onReplies fed active rfl (l.parser.feed chunk).replies
  refine (heard.andThen active ?_ ?_).from (.of_same rfl rfl rfl rfl rfl)
  · intro u e
    rw [e] at heard
    exact tells_onFault heard.lasts.epoch _
  · intro m _ other
    cases (l.parser.feed chunk).fault with
    | none => rfl
    | some why => exact if_neg other

/-! ## events -/

theorem tells_queue (active : l.phase.isActive = true) (c : Command) :
    Tells l (l.queueing c) (l.queue c) := by
  unfold queueing queue
  cases phase : l.phase with
  | connected => exact tells_write l (.command c) c.frame
  | connecting => exact .of (.of_same rfl rfl rfl rfl phase.symm)
  | disconnected | failed => rw [phase] at active; cases active

theorem tells_send (active : l.phase.isActive = true) (c : Command) :
    Tells l (l.sending c) (l.send c) := by
  rw [sending, send]
  cases c.change? with
  | none => exact tells_queue active c
  | some change =>
    cases l.role with
    | command => exact .through (.of_same rfl rfl rfl rfl rfl) (quiet_failures _ _)
    | pubsub =>
      exact (tells_queue (l := { l with role := .pubsub, registry := (l.registry.apply change).1 })
        active _).from (.of_same rfl rfl rfl rfl rfl)

/-- **Every event on an active link is told up to the end of the connection**, if it comes to
one. -/
theorem tells_step (settled : Settled l) (active : l.phase.isActive = true) (e : Event)
    (under : ∀ err retry, e = .connectFailed l.epoch err retry → l.phase = .connecting) :
    Tells l (l.progress e) (l.runningStep e) := by
  have idle : Tells l (.through (.of l)) (.of l) := .of (.of_same rfl rfl rfl rfl rfl)
  -- an event that is the end of the connection
  have ends (why : Cause) (r : why.retries = true → l.phase = .connecting) :
      Tells l (.upTo (.of l) (.lost why)) (l.fail why.error why.retries) :=
    .upTo (Turn.of_andThen _ _) (.of_same rfl rfl rfl rfl rfl) (List.forall_mem_nil _)
      fun _ e => by cases e; exact r
  cases e with
  | send c => exact tells_send active c
  | disconnect t =>
    rw [progress, runningStep, disconnect, if_pos active]
    exact tells_send active _
  | attached epoch socket sentinel? =>
    rw [progress, runningStep]
    split
    · next h => exact tells_attach h.2 socket sentinel?
    · exact .through (.of_same rfl rfl rfl rfl rfl) (quiet_one rfl)
  | connectFailed epoch err retry =>
    rw [progress, runningStep]
    split
    · next current => exact ends (.unreachable err retry) fun _ => under err retry (by rw [current])
    · exact idle
  | data epoch chunk =>
    rw [progress, runningStep]
    split
    · exact tells_receive settled active chunk
    · exact idle
  | closed epoch =>
    rw [progress, runningStep]
    split
    · exact ends .closed fun retries => by cases retries
    · exact idle
  | readFailed epoch cause =>
    rw [progress, runningStep]
    split
    · exact ends (.unread cause) fun retries => by cases retries
    · exact idle
  | retry =>
    have apart : l.phase ≠ .disconnected := by
      intro phase
      rw [phase] at active
      cases active
    rw [progress, runningStep, connect, if_neg apart]
    exact idle
  | writesFail frames cause => exact .of (.of_same rfl rfl rfl rfl rfl)
  | flushesFail frames cause => exact .of (.of_same rfl rfl rfl rfl rfl)
  | shutdown =>
    exact .upTo (Turn.of_andThen _ _) (.of_same rfl rfl rfl rfl rfl) (List.forall_mem_nil _)
      fun _ e => by cases e

end
end Link
end RespLink
