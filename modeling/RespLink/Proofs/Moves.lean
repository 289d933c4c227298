import RespLink.Link.Step

/-!
# The moves of a link

Every turn of a link is a chain of small MOVES.  A move says all that happens in it: what holds
before, what the link takes in, the effects, and the link afterwards.  What is true of a run is
proved move by move.

* `Intake`    what comes into a link: commands, bytes, replies, sockets, and reasons to connect;
* `greeting`  the steps of the handshake that a configuration asks for, with their frames;
* `Onward`    what follows when a step of the handshake may be written;
* `Move`      one move;
* `Moves`     a chain of moves, all intakes and all effects in order;
* `Overlooks` a view of effects that does not see how a link lets go;
* `Stays`     the socket is the same as before, or it was released once and is gone.

A frame that is not written needs no move of its own: losing the socket before the command left
`pending` and losing it after the command reached `waiting` fail the same commands in the same
order.
-/

namespace RespLink

inductive Intake where
  | command (c : Command)
  | chunk (bytes : Bytes)
  | reply (r : Reply)
  /-- from a connect attempt, with the index of the Sentinel that led to it, if one did -/
  | socket (s : Socket) (sentinel? : Option Nat)
  | call

/-- neither bytes nor a socket nor a reason to connect -/
def Intake.isQuiet : Intake → Bool
  | command _ | reply _ => true
  | chunk _ | socket .. | call => false

theorem Intake.quiet_replies (replies : List Reply) :
    ∀ i ∈ replies.map reply, i.isQuiet = true := by
  intro i hi
  obtain ⟨r, _, rfl⟩ := List.mem_map.mp hi
  rfl

/-- the socket that is let go -/
def Effect.released? : Effect → Option Nat
  | released socket => some socket
  | _ => none

/-! ## the steps of the handshake -/

namespace Handshake

/-- the step was answered well -/
def passes : Handshake → Reply → Bool
  | role _, reply => reply.isMaster
  | _, .error _ => false
  | _, _ => true

/-- the order of the Sentinels after the step was answered well -/
def promote : Handshake → Sentinels → Sentinels
  | role i, s => s.moveToFront i
  | _, s => s

end Handshake

namespace Config

/-- the step that chooses the database, if there is one to choose -/
def selectSteps (config : Config) : List (Handshake × Bytes) :=
  config.database.toList.map fun db => (.select, encodeCommand "SELECT" [decimal db.toNat])

/-- the steps once the password is accepted -/
def roleSteps (config : Config) (sentinel? : Option Nat) : List (Handshake × Bytes) :=
  (sentinel?.toList.map fun i => (.role i, encodeCommand "ROLE" [])) ++ config.selectSteps

/-- all steps, in order, each with its frame -/
def greeting (config : Config) (sentinel? : Option Nat) : List (Handshake × Bytes) :=
  (config.password.toList.map fun password =>
    (.auth sentinel?, encodeCommand "AUTH" [config.encoding.encode password]))
      ++ config.roleSteps sentinel?

/-- the steps that are still to come after this one -/
def stepsAfter (config : Config) : Handshake → List (Handshake × Bytes)
  | .auth sentinel? => config.roleSteps sentinel?
  | .role _ => config.selectSteps
  | .select => []

end Config

namespace Link

/-- writes the first of the steps, or ends the handshake -/
def proceed : List (Handshake × Bytes) → Link → Turn
  | [], l => l.finishHandshake
  | (h, frame) :: _, l => l.write (.handshake h) frame

theorem beginSelect_eq (l : Link) : l.beginSelect = l.proceed l.config.selectSteps := by
  unfold beginSelect Config.selectSteps
  cases l.config.database <;> rfl

theorem beginRole_eq (sentinel? : Option Nat) (l : Link) :
    l.beginRole sentinel? = l.proceed (l.config.roleSteps sentinel?) := by
  cases sentinel? with
  | none => exact l.beginSelect_eq
  | some i => rfl

theorem beginAuth_eq (sentinel? : Option Nat) (l : Link) :
    l.beginAuth sentinel? = l.proceed (l.config.greeting sentinel?) := by
  unfold beginAuth Config.greeting
  cases l.config.password with
  | none => exact l.beginRole_eq sentinel?
  | some password => rfl

theorem answered_of_passes {h : Handshake} {reply : Reply} (pass : h.passes reply = true)
    (l : Link) :
    answered h reply l
      = proceed (l.config.stepsAfter h) { l with sentinels := h.promote l.sentinels } := by
  cases h with
  | auth sentinel? =>
    have e : answered (.auth sentinel?) reply l = l.beginRole sentinel? := by
      cases reply <;> first | rfl | cases pass
    rw [e, beginRole_eq]
    rfl
  | role i =>
    have m : reply.isMaster = true := pass
    rw [answered, if_pos m, beginSelect_eq]
    rfl
  | select =>
    have e : answered .select reply l = l.finishHandshake := by
      cases reply <;> first | rfl | cases pass
    rw [e]
    rfl

theorem answered_of_not_passes {h : Handshake} {reply : Reply} (fail : h.passes reply = false)
    (l : Link) : ∃ err retry, answered h reply l = l.fail err retry := by
  cases h with
  | auth sentinel? =>
    cases reply with
    | error text => exact ⟨_, _, rfl⟩
    | _ => cases fail
  | role i =>
    have m : ¬ reply.isMaster = true := by
      intro m
      have f : reply.isMaster = false := fail
      rw [f] at m
      cases m
    exact ⟨_, _, if_neg m⟩
  | select =>
    cases reply with
    | error text => exact ⟨_, _, rfl⟩
    | _ => cases fail

/-! ## moves -/

/-- the link when a frame has been handed to its socket -/
def awaiting (w : Waiter) (s : Socket) (l : Link) : Link :=
  { l with waiting := l.waiting ++ [w], socket? := some s.write.socket }

/-- the link with a new socket -/
def holding (socket : Socket) (l : Link) : Link :=
  { l with socket? := some socket, parser := .empty, waiting := [] }

/-- what follows when these steps are still to come: the first of them is written, or the link is
connected, or the frame could not be written -/
inductive Onward : List (Handshake × Bytes) → Link → List Effect → Link → Prop
  | ask {h frame steps l s} (held : l.socket? = some s) :
    Onward ((h, frame) :: steps) l [.wrote s.number (.handshake h) frame]
      (l.awaiting (.handshake h) s)
  | join {l} : Onward [] l [] { l with phase := .connected }
  | halt {h frame steps l} : Onward ((h, frame) :: steps) l [] l

inductive Move : Link → List Intake → List Effect → Link → Prop
  /-- a command is turned away -/
  | refuse (l c err) : Move l [.command c] [.failed c.ticket err] l
  /-- a disconnect finds nothing to end -/
  | rest (l c) : Move l [.command c] [.idle c.ticket] l
  | keep (l c registry) (running : l.stopped = false) :
    Move l [.command c] [] { l with pending := l.pending ++ [c], registry := registry }
  | dial (l) (phase : l.phase = .disconnected) (free : l.socket? = none) :
    Move l [.call] l.connect.effects l.connect.link
  /-- a new socket, and the first step of the handshake on it -/
  | attach (l socket sentinel? err) {es m} (phase : l.phase = .connecting)
    (onward : Onward (l.config.greeting sentinel?) (l.holding socket) es m) :
    Move l [.socket socket sentinel?]
      (.attached l.epoch socket.number sentinel? :: (failures err l.waitingCommands ++ es)) m
  /-- a socket that comes too late -/
  | pass (l socket sentinel?) : Move l [.socket socket sentinel?] [.released socket.number] l
  /-- a step of the handshake is answered well, and the next one is written -/
  | advance (l h rest reply s) {es m} (plain : l.push? reply = none)
    (phase : l.phase = .connecting) (held : l.socket? = some s)
    (front : l.waiting = .handshake h :: rest) (passes : h.passes reply = true)
    (onward : Onward (l.config.stepsAfter h)
      { l with waiting := rest, sentinels := h.promote l.sentinels } es m) :
    Move l [.reply reply] (.met (some (.handshake h)) reply :: es) m
  /-- a step of the handshake is answered otherwise -/
  | balk (l h rest reply) (plain : l.push? reply = none)
    (front : l.waiting = .handshake h :: rest) (fails : h.passes reply = false) :
    Move l [.reply reply] [.met (some (.handshake h)) reply] { l with waiting := rest }
  | dispatch (l c rest s) (phase : l.phase = .connected) (held : l.socket? = some s)
    (front : l.pending = c :: rest) :
    Move l [] [.wrote s.number (.command c) c.frame]
      (awaiting (.command c) s { l with pending := rest })
  | lose (l err retry) (active : l.phase.isActive = true) :
    Move l [] (l.fail err retry).effects (l.fail err retry).link
  | hear (l chunk) : Move l [.chunk chunk] [] { l with parser := (l.parser.feed chunk).parser }
  | push (l reply es) (known : l.push? reply ≠ none) (mails : ∀ e ∈ es, ∃ m p, e = .delivered m p) :
    Move l [.reply reply] es l
  | drop (l reply) (plain : l.push? reply = none) (front : l.waiting = []) :
    Move l [.reply reply] [.met none reply] l
  /-- a command takes a reply, and awaits more -/
  | take (l c rest reply) (plain : l.push? reply = none) (front : l.waiting = .command c :: rest)
    (more : (c.accept reply).complete = false) :
    Move l [.reply reply] [.met (some (.command c)) reply]
      { l with waiting := .command (c.accept reply) :: rest }
  /-- a command takes its last reply -/
  | finish (l c rest reply) (plain : l.push? reply = none)
    (front : l.waiting = .command c :: rest) (last : (c.accept reply).complete = true) :
    Move l [.reply reply]
      [.met (some (.command c)) reply, .resolved c.ticket (c.accept reply).result]
      { l with waiting := rest }
  /-- the server agrees to part -/
  | part (l c rest reply err) (plain : l.push? reply = none) (phase : l.phase = .connected)
    (front : l.waiting = .command c :: rest) (last : (c.accept reply).complete = true) :
    Move l [.reply reply]
      (.met (some (.command c)) reply :: ((teardown err { l with waiting := rest }).effects
        ++ [.resolved c.ticket (c.accept reply).result]))
      (teardown err { l with waiting := rest }).link
  /-- writing to the socket is going to fail -/
  | spoil (l f) (same : ∀ s : Socket, (f s).number = s.number) :
    Move l [] [] { l with socket? := l.socket?.map f }
  | stop (l) : Move l [] l.shutdown.effects l.shutdown.link

inductive Moves : Link → List Intake → List Effect → Link → Prop
  | none (l) : Moves l [] [] l
  | more {l ins es m ins' es' n} (before : Moves l ins es m) (last : Move m ins' es' n) :
    Moves l (ins ++ ins') (es ++ es') n

namespace Moves
variable {l m n : Link} {ins ins' : List Intake} {es es' : List Effect}

theorem one (h : Move l ins es m) : Moves l ins es m := (none l).more h

theorem trans (a : Moves l ins es m) (b : Moves m ins' es' n) :
    Moves l (ins ++ ins') (es ++ es') n := by
  induction b with
  | none => rwa [List.append_nil, List.append_nil]
  | more _ last ih =>
    rw [← List.append_assoc, ← List.append_assoc]
    exact ih.more last

end Moves

/-! ## views of effects -/

/-- a view that does not see how a link lets go -/
structure Overlooks {α : Type} (f : Effect → Option α) : Prop where
  failed (t : Ticket) (err : Error) : f (.failed t err) = none
  released (socket : Nat) : f (.released socket) = none
  retryAfter (delay : Nat) : f (.retryAfter delay) = none

section
variable {α : Type} {f : Effect → Option α}

theorem filterMap_failures (unseen : ∀ t err, f (.failed t err) = none) (err : Error)
    (cs : List Command) : (failures err cs).filterMap f = [] := by
  rw [failures, List.filterMap_map]
  exact List.filterMap_eq_nil_iff.mpr fun c _ => unseen c.ticket err

theorem filterMap_mails {es : List Effect} (unseen : ∀ m p, f (.delivered m p) = none)
    (mails : ∀ e ∈ es, ∃ m p, e = Effect.delivered m p) : es.filterMap f = [] := by
  refine List.filterMap_eq_nil_iff.mpr fun e he => ?_
  obtain ⟨mailbox, push, rfl⟩ := mails e he
  exact unseen mailbox push

theorem Overlooks.teardown (h : Overlooks f) (err : Error) (l : Link) :
    (l.teardown err).effects.filterMap f = [] := by
  rw [teardown_effects, List.filterMap_append, filterMap_failures h.failed, List.filterMap_map]
  exact List.filterMap_eq_nil_iff.mpr fun s _ => h.released s.number

theorem Overlooks.fail (h : Overlooks f) {l : Link} (active : l.phase.isActive = true)
    (err : Error) (retry : Bool) : (l.fail err retry).effects.filterMap f = [] := by
  rw [fail_of_active active, List.filterMap_append, h.teardown]
  cases retry with
  | true => exact List.filterMap_cons_none (h.retryAfter _)
  | false => rfl

theorem Overlooks.shutdown (h : Overlooks f) (l : Link) :
    l.shutdown.effects.filterMap f = [] := by
  rw [shutdown_effects, List.filterMap_append, filterMap_failures h.failed, List.filterMap_map]
  exact List.filterMap_eq_nil_iff.mpr fun s _ => h.released s.number

end

/-! ## what moves leave alone -/

/-- the number of the socket in use -/
def held? (l : Link) : Option Nat := l.socket?.map Socket.number

theorem held?_awaiting {l : Link} {s : Socket} (held : l.socket? = some s) (w : Waiter) :
    (l.awaiting w s).held? = l.held? := by
  rw [held?, held?, held, awaiting, Option.map_some, Option.map_some, Socket.number_write]

theorem held?_spoilt (l : Link) {f : Socket → Socket}
    (same : ∀ s : Socket, (f s).number = s.number) :
    { l with socket? := l.socket?.map f }.held? = l.held? := by
  rw [held?, held?, Option.map_map]
  exact congrArg (Option.map · l.socket?) (funext same)

section
variable {l m : Link} {ins : List Intake} {es es' : List Effect}
  {steps : List (Handshake × Bytes)}

theorem Onward.same (h : Onward steps l es m) : m.role = l.role ∧ m.config = l.config := by
  cases h <;> exact ⟨rfl, rfl⟩

theorem Move.same (h : Move l ins es m) : m.role = l.role ∧ m.config = l.config := by
  cases h with
  | dial phase free =>
    rw [connect, if_pos phase]
    exact ⟨rfl, rfl⟩
  | attach _ _ _ _ onward => exact onward.same
  | advance _ _ _ _ _ _ _ _ _ onward => exact onward.same
  | lose err retry active =>
    rw [fail_of_active active]
    exact ⟨rfl, rfl⟩
  | _ => exact ⟨rfl, rfl⟩

theorem Moves.same (h : Moves l ins es m) : m.role = l.role ∧ m.config = l.config := by
  induction h with
  | none => exact ⟨rfl, rfl⟩
  | more _ last ih => exact ⟨last.same.1.trans ih.1, last.same.2.trans ih.2⟩

/-- the same socket as before, or none; it is released once, when it is lost -/
inductive Stays (l : Link) (es : List Effect) (m : Link) : Prop
  | here (epoch : m.epoch = l.epoch) (held : m.held? = l.held?) (parser : m.parser = l.parser)
    (phase : m.phase = l.phase ∨ l.phase = .connecting ∧ m.phase = .connected)
    (released : es.filterMap Effect.released? = [])
  | gone (epoch : l.epoch < m.epoch) (held : m.held? = none) (parser : m.parser = .empty)
    (phase : m.phase = .disconnected) (released : es.filterMap Effect.released? = l.held?.toList)

theorem Stays.refl (l : Link) : Stays l [] l := .here rfl rfl rfl (.inl rfl) rfl

theorem Stays.trans {n : Link} (a : Stays l es m) (b : Stays m es' n) :
    Stays l (es ++ es') n := by
  cases a with
  | here epoch held parser phase released =>
    cases b with
    | here epoch' held' parser' phase' released' =>
      refine .here (epoch'.trans epoch) (held'.trans held) (parser'.trans parser) ?_ ?_
      · rcases phase' with same | ⟨was, now⟩
        · rw [same]
          exact phase
        · rcases phase with same | ⟨_, now'⟩
          · exact .inr ⟨same.symm.trans was, now⟩
          · rw [now'] at was
            cases was
      · rw [List.filterMap_append, released, released', List.nil_append]
    | gone epoch' held' parser' phase' released' =>
      refine .gone (epoch ▸ epoch') held' parser' phase' ?_
      rw [List.filterMap_append, released, released', List.nil_append, held]
  | gone epoch held parser phase released =>
    cases b with
    | here epoch' held' parser' phase' released' =>
      refine .gone (epoch'.symm ▸ epoch) (held'.trans held) (parser'.trans parser) ?_ ?_
      · rcases phase' with same | ⟨was, _⟩
        · exact same.trans phase
        · rw [phase] at was
          cases was
      · rw [List.filterMap_append, released, released', List.append_nil]
    | gone epoch' held' parser' phase' released' =>
      refine .gone (Nat.lt_trans epoch epoch') held' parser' phase' ?_
      rw [List.filterMap_append, released, released', held, Option.toList_none, List.append_nil]

theorem released_teardown (err : Error) (l : Link) :
    (l.teardown err).effects.filterMap Effect.released? = l.held?.toList := by
  rw [teardown_effects, List.filterMap_append, filterMap_failures fun _ _ => rfl, held?]
  cases l.socket? <;> rfl

theorem Onward.stays (h : Onward steps l es m) (phase : l.phase = .connecting) :
    Stays l es m := by
  cases h with
  | ask held => exact .here rfl (held?_awaiting held _) rfl (.inl rfl) rfl
  | join => exact .here rfl rfl rfl (.inr ⟨phase, rfl⟩) rfl
  | halt => exact .refl l

theorem Move.stays (h : Move l ins es m) (quiet : ∀ i ∈ ins, i.isQuiet = true) :
    Stays l es m := by
  cases h with
  | refuse | rest | keep | balk | drop | take | finish =>
    exact .here rfl rfl rfl (.inl rfl) rfl
  | push reply es _ mails =>
    exact .here rfl rfl rfl (.inl rfl) (filterMap_mails (fun _ _ => rfl) mails)
  | dial | attach | pass | hear => cases quiet _ List.mem_cons_self
  | advance _ _ _ _ _ phase _ _ _ onward =>
    cases onward.stays phase with
    | here epoch held parser phase released => exact .here epoch held parser phase released
    | gone epoch held parser phase released => exact .gone epoch held parser phase released
  | dispatch c rest s _ held =>
    have same := held?_awaiting (l := { l with pending := rest }) held (.command c)
    exact .here rfl same rfl (.inl rfl) rfl
  | lose err retry active =>
    rw [fail_of_active active]
    refine .gone (Nat.lt_succ_self _) rfl rfl rfl ?_
    rw [List.filterMap_append, released_teardown]
    cases retry <;> exact List.append_nil _
  | part c rest reply err =>
    refine .gone (Nat.lt_succ_self _) rfl rfl rfl ?_
    rw [List.filterMap_cons_none rfl, List.filterMap_append, released_teardown]
    exact List.append_nil _
  | spoil f same => exact .here rfl (l.held?_spoilt same) rfl (.inl rfl) rfl
  | stop =>
    refine .gone (Nat.lt_succ_self _) rfl rfl rfl ?_
    rw [shutdown_effects, List.filterMap_append, filterMap_failures fun _ _ => rfl, held?]
    cases l.socket? <;> rfl

theorem Moves.stays (h : Moves l ins es m) (quiet : ∀ i ∈ ins, i.isQuiet = true) :
    Stays l es m := by
  induction h with
  | none => exact .refl _
  | more _ last ih =>
    exact (ih fun i hi => quiet i (List.mem_append_left _ hi)).trans
      (last.stays fun i hi => quiet i (List.mem_append_right _ hi))

end
end Link
end RespLink
