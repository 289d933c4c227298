import RespLink.Proofs.Turns

/-!
# Commands are conserved

Every command that is handed to a link is in one place: in `pending`, in `waiting`, or ended, and
ended once.  Moves change the place and never the order.

* `Command.bare`   a command apart from the account of its replies, which moves change;
* `commands`       all commands that a link holds: those written, then those that are not;
* `Conserves`      what went in and was held before is held or ended afterwards, and what is held is
                   in the order in which it went in;
* `Accounted`      where the commands are that were submitted to a link;
* `commands_accounted_for`   that is where they are after every run.
-/

namespace RespLink

/-- the ticket that is done with -/
def Effect.ended? : Effect → Option Ticket
  | resolved t _ | failed t _ | idle t => some t
  | _ => none

namespace Command

/-- the command without the account of its replies -/
def bare (c : Command) : Command :=
  { c with expected := 0, received := 0, values := [], failure? := none }

theorem bare_accept (c : Command) (reply : Reply) : (c.accept reply).bare = c.bare := by
  unfold accept
  split <;> rfl

theorem Enters.bare {c c' : Command} (h : c.Enters c') : c'.bare = c.bare := by
  rcases h with rfl | ⟨replies, rfl⟩ <;> rfl

end Command

/-- who submitted the command, whatever became of it since -/
theorem map_ticket_of_map_bare {cs cs' : List Command}
    (h : cs.map Command.bare = cs'.map Command.bare) :
    cs.map Command.ticket = cs'.map Command.ticket := by
  have e := congrArg (List.map Command.ticket) h
  rwa [List.map_map, List.map_map] at e

namespace Link

/-- those that were written, then those that were not -/
def commands (l : Link) : List Command := l.waitingCommands ++ l.pending

/-- what a chain of moves does to the commands -/
structure Conserves (l : Link) (ins : List Intake) (es : List Effect) (m : Link) : Prop where
  /-- each is held or ended, as often as it came -/
  tickets : (es.filterMap Effect.ended? ++ m.commands.map Command.ticket).Perm
    (l.commands.map Command.ticket ++ (ins.filterMap Intake.command?).map Command.ticket)
  /-- those that are held keep their order -/
  order : (m.commands.map Command.bare).Sublist
    (l.commands.map Command.bare ++ (ins.filterMap Intake.command?).map Command.bare)

section
variable {l m n : Link} {ins ins' : List Intake} {es es' : List Effect}
  {steps : List (Handshake × Bytes)}

theorem Conserves.refl (l : Link) : Conserves l [] [] l where
  tickets := by
    rw [List.filterMap_nil, List.filterMap_nil, List.map_nil, List.nil_append, List.append_nil]
  order := by
    rw [List.filterMap_nil, List.map_nil, List.append_nil]

theorem Conserves.trans (a : Conserves l ins es m) (b : Conserves m ins' es' n) :
    Conserves l (ins ++ ins') (es ++ es') n where
  tickets := by
    rw [List.filterMap_append, List.filterMap_append, List.map_append, ← List.append_assoc,
      List.append_assoc]
    refine (b.tickets.append_left _).trans ?_
    rw [← List.append_assoc]
    exact a.tickets.append_right _
  order := by
    rw [List.filterMap_append, List.map_append, ← List.append_assoc]
    exact b.order.trans (a.order.append_right _)

/-- the commands stay where they are -/
theorem Conserves.of_same (held : m.commands.map Command.bare = l.commands.map Command.bare)
    (none : es.filterMap Effect.ended? = []) (quiet : ins.filterMap Intake.command? = []) :
    Conserves l ins es m where
  tickets := by
    rw [none, quiet, map_ticket_of_map_bare held, List.nil_append, List.map_nil, List.append_nil]
  order := by
    rw [quiet, held, List.map_nil, List.append_nil]

/-- a command is ended as soon as it comes -/
theorem Conserves.of_refused {c : Command} {e : Effect} (ended : e.ended? = some c.ticket) :
    Conserves l [.command c] [e] l where
  tickets := by
    rw [List.filterMap_cons_some ended]
    exact List.perm_append_comm
  order := List.sublist_append_left _ _

/-- some commands from the front are ended, each once -/
theorem Conserves.of_ended (gone : List Command) (held : l.commands = gone ++ m.commands)
    (ended : (es.filterMap Effect.ended?).Perm (gone.map Command.ticket))
    (quiet : ins.filterMap Intake.command? = []) : Conserves l ins es m where
  tickets := by
    rw [quiet, held, List.map_append, List.map_nil, List.append_nil]
    exact ended.append_right _
  order := by
    rw [quiet, held, List.map_append, List.map_nil, List.append_nil]
    exact List.sublist_append_right _ _

theorem ended_failures (err : Error) (cs : List Command) :
    (failures err cs).filterMap Effect.ended? = cs.map Command.ticket := by
  induction cs with
  | nil => rfl
  | cons c cs ih =>
    show c.ticket :: (failures err cs).filterMap Effect.ended? = _
    rw [ih, List.map_cons]

theorem ended_released (l : Link) :
    (l.socket?.toList.map fun s => Effect.released s.number).filterMap Effect.ended? = [] := by
  cases l.socket? <;> rfl

theorem ended_teardown (err : Error) (l : Link) :
    (l.teardown err).effects.filterMap Effect.ended? = l.commands.map Command.ticket := by
  rw [teardown_effects, List.filterMap_append, ended_failures, ended_released, List.append_nil]
  rfl

theorem commands_of_command {c : Command} {rest : List Waiter}
    (front : l.waiting = .command c :: rest) :
    l.commands = c :: { l with waiting := rest }.commands := by
  rw [commands, waitingCommands, front]
  rfl

theorem commands_of_handshake {h : Handshake} {rest : List Waiter}
    (front : l.waiting = .handshake h :: rest) :
    l.commands = { l with waiting := rest }.commands := by
  rw [commands, waitingCommands, front]
  rfl

theorem Onward.conserves (h : Onward steps l es m) :
    m.commands = l.commands ∧ es.filterMap Effect.ended? = [] := by
  cases h with
  | ask =>
    refine ⟨?_, rfl⟩
    rw [commands, waitingCommands, awaiting, List.filterMap_append]
    show (l.waitingCommands ++ []) ++ l.pending = _
    rw [List.append_nil]
    rfl
  | join => exact ⟨rfl, rfl⟩
  | halt => exact ⟨rfl, rfl⟩

theorem Move.conserves (h : Move l ins es m) : Conserves l ins es m := by
  cases h with
  | refuse => exact .of_refused rfl
  | rest => exact .of_refused rfl
  | keep c registry running =>
    have held : { l with pending := l.pending ++ [c], registry := registry }.commands
        = l.commands ++ [c] := (List.append_assoc _ _ _).symm
    refine ⟨?_, ?_⟩
    · rw [held, List.map_append]
      exact .refl _
    · rw [held, List.map_append]
      exact .refl _
  | dial phase free =>
    rw [connect, if_pos phase]
    exact .of_same rfl rfl rfl
  | attach socket sentinel? err phase onward =>
    obtain ⟨held, none⟩ := onward.conserves
    refine .of_ended l.waitingCommands ?_ ?_ rfl
    · rw [held]
      rfl
    · rw [List.filterMap_cons_none rfl, List.filterMap_append, ended_failures, none,
        List.append_nil]
  | pass => exact .of_same rfl rfl rfl
  | advance h rest reply s plain phase held front passes onward =>
    obtain ⟨same, none⟩ := onward.conserves
    refine .of_same ?_ ?_ rfl
    · rw [same, commands_of_handshake front]
      rfl
    · rw [List.filterMap_cons_none rfl, none]
  | balk h rest reply plain front fails =>
    exact .of_same (by rw [commands_of_handshake front]) rfl rfl
  | dispatch c rest s phase held front =>
    refine .of_same ?_ rfl rfl
    rw [commands, commands, waitingCommands, awaiting, List.filterMap_append, front]
    show (((l.waitingCommands ++ [c]) ++ rest).map Command.bare) = _
    rw [List.append_assoc]
    rfl
  | lose err retry active =>
    rw [fail_of_active active]
    refine .of_ended l.commands (List.append_nil _).symm ?_ rfl
    rw [List.filterMap_append, ended_teardown]
    cases retry <;> exact .of_eq (List.append_nil _)
  | hear => exact .of_same rfl rfl rfl
  | push reply es known mails => exact .of_same rfl (filterMap_mails (fun _ _ => rfl) mails) rfl
  | drop => exact .of_same rfl rfl rfl
  | take c rest reply plain front more =>
    refine .of_same ?_ rfl rfl
    rw [commands_of_command front, List.map_cons, ← c.bare_accept reply]
    rfl
  | finish c rest reply plain front last =>
    exact .of_ended [c] (commands_of_command front) (.refl _) rfl
  | part c rest reply err plain phase front last =>
    refine .of_ended l.commands (List.append_nil _).symm ?_ rfl
    rw [List.filterMap_cons_none rfl, List.filterMap_append, ended_teardown,
      commands_of_command front, List.map_cons]
    exact List.perm_append_comm
  | spoil => exact .of_same rfl rfl rfl
  | stop =>
    refine .of_ended l.commands (List.append_nil _).symm ?_ rfl
    rw [shutdown_effects, List.filterMap_append, ended_failures, ended_released, List.append_nil]
    exact .refl _

theorem Moves.conserves (h : Moves l ins es m) : Conserves l ins es m := by
  induction h with
  | none => exact .refl _
  | more _ last ih => exact ih.trans last.conserves

/-! ## what is still awaited -/

/-- a command that is held was held before, or came just now, or has met a reply just now -/
theorem Move.source (h : Move l ins es m) {c : Command} (hc : c ∈ m.commands) :
    c ∈ l.commands ∨ .command c ∈ ins ∨
      ∃ c' ∈ l.commands, ∃ reply, c = c'.accept reply ∧ c.complete = false := by
  cases h with
  | keep c' registry running =>
    rcases List.mem_append.mp hc with waiting | pending
    · exact .inl (List.mem_append_left _ waiting)
    · rcases List.mem_append.mp pending with old | new
      · exact .inl (List.mem_append_right _ old)
      · rw [List.mem_singleton.mp new]
        exact .inr (.inl List.mem_cons_self)
  | dial phase =>
    rw [connect, if_pos phase] at hc
    exact .inl hc
  | attach socket sentinel? err phase onward =>
    rw [onward.conserves.1] at hc
    exact .inl (List.mem_append_right _ hc)
  | advance h rest reply s plain phase held front passes onward =>
    rw [onward.conserves.1] at hc
    rw [commands_of_handshake front]
    exact .inl hc
  | balk h rest reply plain front =>
    rw [commands_of_handshake front]
    exact .inl hc
  | dispatch c' rest s phase held front =>
    have same : (awaiting (.command c') s { l with pending := rest }).commands = l.commands := by
      rw [commands, commands, waitingCommands, awaiting, List.filterMap_append, front]
      exact List.append_assoc _ [c'] rest
    rw [same] at hc
    exact .inl hc
  | lose err retry active =>
    rw [fail_of_active active] at hc
    cases hc
  | take c' rest reply plain front more =>
    rw [commands_of_command front]
    rcases List.mem_cons.mp hc with rfl | other
    · exact .inr (.inr ⟨c', List.mem_cons_self, reply, rfl, more⟩)
    · exact .inl (List.mem_cons_of_mem _ other)
  | finish c' rest reply plain front =>
    rw [commands_of_command front]
    exact .inl (List.mem_cons_of_mem _ hc)
  | part | stop => cases hc
  | _ => exact .inl hc

/-- every command that is held awaits a reply -/
def Awaits (l : Link) : Prop := ∀ c ∈ l.commands, c.received < c.expected

theorem Moves.awaits (h : Moves l ins es m)
    (fresh : ∀ c, .command c ∈ ins → c.received < c.expected) (before : Awaits l) : Awaits m := by
  induction h with
  | none => exact before
  | more _ last ih =>
    intro c hc
    rcases last.source hc with held | came | ⟨c', _, reply, rfl, more⟩
    · exact ih (fun c hc => fresh c (List.mem_append_left _ hc)) c held
    · exact fresh c (List.mem_append_right _ came)
    · exact Nat.lt_of_not_le (of_decide_eq_false more)

/-! ## links that have stopped -/

theorem Onward.stopped (h : Onward steps l es m) : m.stopped = l.stopped := by
  cases h <;> rfl

/-- a link that has stopped holds no command -/
def Emptied (l : Link) : Prop := l.stopped = true → l.commands = []

/-- a link stops by letting go of all commands, and keeps none from then on -/
theorem Move.emptied (h : Move l ins es m) (before : Emptied l) : Emptied m := by
  have order := h.conserves.order
  intro stopped
  -- a move that takes in no command leaves nothing where there was nothing
  have quiet (still : l.stopped = true) (none : ins.filterMap Intake.command? = []) :
      m.commands = [] := by
    rw [before still, none] at order
    exact List.map_eq_nil_iff.mp (List.sublist_nil.mp order)
  cases h with
  | refuse => exact before stopped
  | rest => exact before stopped
  | keep c registry running => rw [running] at stopped; cases stopped
  | dial phase free =>
    rw [connect, if_pos phase] at stopped
    exact quiet stopped rfl
  | attach _ _ _ _ onward => exact quiet (onward.stopped.symm.trans stopped) rfl
  | advance _ _ _ _ _ _ _ _ _ onward => exact quiet (onward.stopped.symm.trans stopped) rfl
  | lose err retry active =>
    rw [fail_of_active active] at stopped
    exact quiet stopped rfl
  | stop => rfl
  | _ => exact quiet stopped rfl

theorem Moves.emptied (h : Moves l ins es m) (before : Emptied l) : Emptied m := by
  induction h with
  | none => exact before
  | more _ last ih => exact last.emptied ih

theorem step_shutdown_stopped (l : Link) : (l.step .shutdown).link.stopped = true := by
  cases running : l.stopped with
  | true =>
    rw [step_of_stopped running]
    exact running
  | false =>
    rw [step_of_running running]
    rfl

theorem run_of_stopped (stopped : l.stopped = true) (events : List Event) :
    (run events l).link = l := by
  induction events with
  | nil => rfl
  | cons e rest ih =>
    have still : (l.step e).link = l := by
      rw [step_of_stopped stopped]
      cases e <;> rfl
    show (run rest (l.step e).link).link = l
    rw [still]
    exact ih

theorem run_shutdown_stopped {events : List Event} (h : .shutdown ∈ events) (l : Link) :
    (run events l).link.stopped = true := by
  obtain ⟨before, after, rfl⟩ := List.append_of_mem h
  rw [run_append]
  show (run after ((run before l).link.step .shutdown).link).link.stopped = true
  have stopped := step_shutdown_stopped (run before l).link
  rw [run_of_stopped stopped]
  exact stopped

/-! ## runs -/

/-- what is kept in order of what is distinct is what is not ended -/
theorem eq_filter_of_perm {ended : List Ticket} {held all : List Command}
    (order : held.Sublist all)
    (each : (ended ++ held.map Command.ticket).Perm (all.map Command.ticket))
    (distinct : (all.map Command.ticket).Nodup) :
    held = all.filter fun c => c.ticket ∉ ended := by
  have apart := List.nodup_append.mp (each.nodup_iff.mpr distinct)
  have kept : held.filter (fun c => c.ticket ∉ ended) = held := by
    rw [List.filter_eq_self]
    intro c hc
    refine decide_eq_true fun gone => ?_
    exact apart.2.2 c.ticket gone c.ticket (List.mem_map_of_mem hc) rfl
  have sub := order.filter fun c => decide (c.ticket ∉ ended)
  rw [kept] at sub
  refine sub.eq_of_length_le ?_
  -- the tickets that are left are distinct, and each of them is held
  have left : ((all.filter fun c => c.ticket ∉ ended).map Command.ticket).Nodup :=
    distinct.sublist (List.filter_sublist.map _)
  have among : (all.filter fun c => c.ticket ∉ ended).map Command.ticket
      ⊆ held.map Command.ticket := by
    intro t ht
    obtain ⟨c, hc, rfl⟩ := List.mem_map.mp ht
    obtain ⟨inAll, notEnded⟩ := List.mem_filter.mp hc
    have somewhere := each.mem_iff.mpr (List.mem_map_of_mem (f := Command.ticket) inAll)
    exact (List.mem_append.mp somewhere).resolve_left (of_decide_eq_true notEnded)
  have bound := List.Nodup.length_le_of_subset left among
  rwa [List.length_map, List.length_map] at bound

/-- the commands that were submitted, after a turn -/
structure Accounted (submitted : List Command) (t : Turn) : Prop where
  /-- each is ended or waiting or pending, and each once -/
  once : (t.effects.filterMap Effect.ended? ++
      (t.link.waitingCommands.map Command.ticket ++ t.link.pending.map Command.ticket)).Perm
    (submitted.map Command.ticket)
  /-- those that wait, then those that are pending, keep the order of submission -/
  order : ((t.link.waitingCommands ++ t.link.pending).map Command.bare).Sublist
    (submitted.map Command.bare)
  /-- and they are all that are not ended, if no two submitters share a ticket -/
  rest : (submitted.map Command.ticket).Nodup →
    (t.link.waitingCommands ++ t.link.pending).map Command.bare =
      (submitted.filter fun c => c.ticket ∉ t.effects.filterMap Effect.ended?).map Command.bare

theorem Accounted.of_perm {submitted : List Command} {t : Turn}
    (each : (t.effects.filterMap Effect.ended? ++ t.link.commands.map Command.ticket).Perm
      (submitted.map Command.ticket))
    (order : (t.link.commands.map Command.bare).Sublist (submitted.map Command.bare)) :
    Accounted submitted t where
  once := by
    rw [commands, List.map_append] at each
    exact each
  order := order
  rest distinct := by
    have tickets (cs : List Command) :
        (cs.map Command.bare).map Command.ticket = cs.map Command.ticket := by
      rw [List.map_map]
      rfl
    have held := eq_filter_of_perm order (by rw [tickets, tickets]; exact each)
      (by rw [tickets]; exact distinct)
    rw [List.filter_map] at held
    exact held

theorem bare_of_enters {cs cs' : List Command} (h : List.Forall₂ Command.Enters cs cs') :
    cs'.map Command.bare = cs.map Command.bare := by
  induction h with
  | nil => rfl
  | cons enters _ ih => rw [List.map_cons, List.map_cons, ih, enters.bare]

/-- **No command is lost, doubled or ended twice.**  After any run each command submitted is ended,
waiting or pending, once; what is held keeps its order; after a shutdown nothing is held.  A change
of subscriptions on a link for commands is refused at once. -/
theorem commands_accounted_for (role : Role) (config : Config) (events : List Event) :
    Accounted (events.filterMap (Event.command? config.encoding))
        (run events (start role config)) ∧
      (.shutdown ∈ events → (run events (start role config)).link.waitingCommands = [] ∧
        (run events (start role config)).link.pending = []) ∧
      ∀ c, role = .command → (run events (start role config)).link.stopped = false →
        c.change?.isSome = true →
        (run events (start role config)).link.step (.send c) =
          ⟨(run events (start role config)).link, [.failed c.ticket
            (.config (c.verb ++ " must be sent on the pub/sub connection"))]⟩ := by
  obtain ⟨ins, ⟨moves, _⟩, entered⟩ := run_leads (settled_start role config) events
  have bare := bare_of_enters entered
  have conserved := moves.conserves
  refine ⟨.of_perm ?_ ?_, ?_, ?_⟩
  · have each := conserved.tickets
    rw [map_ticket_of_map_bare bare] at each
    exact each
  · have order := conserved.order
    rw [bare] at order
    exact order
  · intro stops
    have stopped := run_shutdown_stopped stops (start role config)
    have none : (run events (start role config)).link.commands = [] :=
      moves.emptied (fun _ => rfl) stopped
    exact List.append_eq_nil_iff.mp none
  · intro c isCommand running changes
    obtain ⟨change, hc⟩ := Option.isSome_iff_exists.mp changes
    have same : (run events (start role config)).link.role = .command :=
      moves.same.1.trans isCommand
    rw [step_of_running running]
    show send c _ = _
    rw [send, hc, same]
    rfl

/-- a `PING`, and a `QUIT` while the link connects; then a change of subscriptions is turned away,
or the last handle goes -/
theorem commands_accounted_for_ping :
    let ping := Command.ofRequest 1 (Request.ofVerb "PING") .utf8
    let quitting := Command.ofRequest 2 quit .utf8
    let asked := run [.send ping, .disconnect 2] (start .command .default)
    let stopped := run [.send ping, .disconnect 2, .shutdown] (start .command .default)
    (asked.link.waitingCommands ++ asked.link.pending).map Command.bare
        = [ping.bare, quitting.bare] ∧
      asked.link.step (.send (ping.changing (.subscribe .channel [])))
        = ⟨asked.link, [.failed 1 (.config "PING must be sent on the pub/sub connection")]⟩ ∧
      stopped.link.pending = [] := by
  intro ping quitting asked stopped
  have apart := commands_accounted_for .command .default [.send ping, .disconnect 2]
  have done := commands_accounted_for .command .default [.send ping, .disconnect 2, .shutdown]
  refine ⟨apart.1.rest (by decide), ?_, (done.2.1 (by decide)).2⟩
  exact apart.2.2 (ping.changing (.subscribe .channel [])) rfl rfl rfl

/-- the second of two pending commands cannot be written on a new socket: both are done with, the
written one first, and the next command waits for another socket -/
example :
    let ping t := Command.ofRequest t (Request.ofVerb "PING") .utf8
    let t := run [.send (ping 1), .send (ping 2),
      .attached 1 ⟨7, some ⟨1, ⟨"BrokenPipe", "broken pipe"⟩⟩, none⟩ none, .send (ping 3)]
      (start .command .default)
    t.effects.filterMap Effect.ended? = [1, 2] ∧ t.link.waitingCommands = [] ∧
      t.link.pending = [ping 3] := by
  exact ⟨rfl, rfl, rfl⟩

end
end Link
end RespLink
