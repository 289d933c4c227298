import RespLink.Proofs.Failures

/-!
# Partings

To disconnect is to submit `QUIT` and to wait for its result.  When the result is there the
connection is gone, but for one case: a server may answer `QUIT` with an error, and then the link
stays connected.

* `quit_answered`   what a reply makes of `QUIT`;
* `Sole`            no command but `q` has its ticket; it stays so as long as `q` waits;
* `Answered`        `q` is done with by a reply that does not end the connection;
* `disconnect_completes`   where a link is when a disconnect is done.
-/

namespace RespLink

/-- a payload that is not wanted is dropped; an error is not -/
theorem transform_unit (e : Encoding) (reply : Reply) :
    transform reply .none .unit e = .ok .unit ∨
      ∃ text, transform reply .none .unit e = .error (.server text) := by
  cases reply with
  | error text => exact .inr ⟨text, rfl⟩
  | _ => exact .inl rfl

namespace Link

/-- `QUIT` fails only if the server says so -/
theorem quit_answered (t : Ticket) (e : Encoding) (reply : Reply) :
    ((Command.ofRequest t quit e).accept reply).succeeded = true ∨
      ∃ text, ((Command.ofRequest t quit e).accept reply).result = .error (.server text) := by
  have plain : Transform.ofVerb quit.verb = .none := by decide
  have read : transform reply (Transform.ofVerb quit.verb) quit.shape (quit.encoding e)
      = transform reply .none .unit (quit.encoding e) := by rw [plain]; rfl
  rcases transform_unit (quit.encoding e) reply with ok | ⟨text, error⟩
  · left
    rw [Command.accept_of_ok (c := Command.ofRequest t quit e) (read.trans ok)]
    rfl
  · refine .inr ⟨text, ?_⟩
    rw [Command.accept_of_error (c := Command.ofRequest t quit e) (read.trans error)]
    rfl

/-- no command but this one has its ticket -/
def Sole (q : Command) (l : Link) : Prop := ∀ c ∈ l.commands, c.ticket = q.ticket → c = q

section
variable {l m : Link} {ins : List Intake} {es : List Effect} {q : Command}

/-- a command that one reply completes does not wait with a reply -/
theorem Moves.sole (h : Moves l ins es m) (one : q.expected ≤ q.received + 1)
    (apart : ∀ c, .command c ∈ ins → c.ticket = q.ticket → c = q) (sole : Sole q l) :
    Sole q m := by
  induction h with
  | none => exact sole
  | more before last ih =>
    have sole := ih fun c hc => apart c (List.mem_append_left _ hc)
    intro c hc same
    rcases last.source hc with held | came | ⟨c', held, reply, rfl, more⟩
    · exact sole c held same
    · exact apart c (List.mem_append_right _ came) same
    · rw [Command.ticket_accept] at same
      rw [sole c' held same, Command.complete, Command.expected_accept, Command.received_accept,
        decide_eq_false_iff_not] at more
      exact absurd one more

/-! ## what is done with before the connection ends -/

/-- the effect is done with `q` by a reply that does not end the connection -/
def Answered (q : Command) (x : Effect) : Prop :=
  ∃ reply, x = .resolved q.ticket (q.accept reply).result ∧
    ((q.accept reply).isQuit && (q.accept reply).succeeded) = false

theorem ended_writing (l : Link) (w : Waiter) (frame : Bytes) :
    ∀ x ∈ (l.writing w frame).turn.effects, x.ended? = none := by
  rw [writing]
  intro x hx
  cases held : l.socket? with
  | none =>
    rw [held] at hx
    cases hx
  | some s =>
    have wrote : x ∈ (if s.write.written then [Effect.wrote s.number w frame] else []) := by
      rw [held] at hx
      cases fault : s.write.fault? with
      | none => simp only [fault] at hx; exact hx
      | some cause => simp only [fault] at hx; exact hx
    split at wrote
    · rw [List.mem_singleton.mp wrote]
      rfl
    · cases wrote

theorem ended_andThen {x : Progress} {f : Link → Progress}
    (first : ∀ e ∈ x.turn.effects, e.ended? = none)
    (later : ∀ l, ∀ e ∈ (f l).turn.effects, e.ended? = none) :
    ∀ e ∈ (x.andThen f).turn.effects, e.ended? = none := by
  cases x with
  | upTo u d => exact first
  | through u =>
    rw [Progress.turn_through_andThen]
    intro e he
    exact (List.mem_append.mp he).elim (first e) (later u.link e)

theorem ended_flushing (cs : List Command) (l : Link) :
    ∀ x ∈ (flushing cs l).turn.effects, x.ended? = none := by
  induction cs generalizing l with
  | nil => exact fun _ hx => nomatch hx
  | cons c rest ih => exact ended_andThen (ended_writing _ _ _) ih

theorem ended_proceeding (steps : List (Handshake × Bytes)) (l : Link) :
    ∀ x ∈ (proceeding steps l).turn.effects, x.ended? = none := by
  cases steps with
  | nil => exact ended_flushing _ _
  | cons step steps => exact ended_writing _ _ _

theorem answered_accepting (settled : Settled l) (sole : Sole q l) (reply : Reply) :
    ∀ x ∈ (l.accepting reply).turn.effects, x.ended? = some q.ticket →
      Answered q x ∧ l.phase = .connected := by
  intro x hx done
  rw [accepting] at hx
  cases front : l.waiting with
  | nil =>
    rw [front] at hx
    cases hx
  | cons w rest =>
    rw [front] at hx
    cases w with
    | handshake h =>
      cases refusal : h.refusal? reply with
      | some why =>
        simp only [refusal] at hx
        cases hx
      | none =>
        simp only [refusal] at hx
        rw [ended_proceeding _ _ x hx] at done
        cases done
    | command c =>
      simp only at hx
      split at hx
      · split at hx
        · cases hx
        · next lasting =>
          rw [Progress.turn_through, List.mem_singleton] at hx
          subst hx
          have same : c.ticket = q.ticket :=
            (c.ticket_accept reply).symm.trans (Option.some.inj done)
          have held : c ∈ l.commands := by
            rw [commands_of_command front]
            exact List.mem_cons_self
          obtain rfl := sole c held same
          exact ⟨⟨reply, by rw [Command.ticket_accept], eq_false_of_ne_true lasting⟩,
            settled.connected_of_command front⟩
      · cases hx

theorem answered_replying (settled : Settled l) (sole : Sole q l) (reply : Reply) :
    ∀ x ∈ (l.replying reply).turn.effects, x.ended? = some q.ticket →
      Answered q x ∧ l.phase = .connected := by
  intro x hx done
  rw [replying] at hx
  cases push : l.push? reply with
  | some p =>
    rw [push] at hx
    obtain ⟨mailbox, _, rfl⟩ := List.mem_map.mp hx
    cases done
  | none =>
    simp only [push] at hx
    rw [Progress.turn_through_andThen] at hx
    rcases List.mem_append.mp hx with met | later
    · rw [List.mem_singleton.mp met] at done
      cases done
    · exact answered_accepting settled sole reply x later done

theorem answered_hearing (settled : Settled l) (active : l.phase.isActive = true)
    (sole : Sole q l) (one : q.expected ≤ q.received + 1) (replies : List Reply) :
    ∀ x ∈ (hearing replies l).turn.effects, x.ended? = some q.ticket →
      Answered q x ∧ (hearing replies l).turn.link.phase = .connected := by
  induction replies generalizing l with
  | nil => exact fun _ hx => nomatch hx
  | cons reply rest ih =>
    have first := tells_onReply settled reply
    have lead := onReply_leads settled reply
    have all := (tells_onReplies settled active rfl (reply :: rest)).lasts
    intro x hx done
    have now (h : Answered q x ∧ l.phase = .connected) :
        Answered q x ∧ (hearing (reply :: rest) l).turn.link.phase = .connected :=
      ⟨h.1, all.connected h.2⟩
    cases told : l.replying reply with
    | upTo u d =>
      rw [hearing, told] at hx
      exact now (answered_replying settled sole reply x (by rw [told]; exact hx) done)
    | through u =>
      rw [hearing, told, Progress.turn_through_andThen] at hx ⊢
      rcases List.mem_append.mp hx with early | later
      · rw [hearing, told, Progress.turn_through_andThen] at now
        exact now (answered_replying settled sole reply x (by rw [told]; exact early) done)
      · rw [told] at first
        have whole : u = l.onReply reply := first.whole
        refine ih (first.settled lead) (first.lasts.active active) ?_ x later done
        rw [whole]
        refine lead.1.sole one (fun c came => ?_) sole
        cases List.mem_singleton.mp came

/-- bytes that are no reply do nothing before they are the end -/
theorem turn_andThen_faulting (x : Progress) (fault : Option Malformed) :
    (x.andThen (faulting fault)).turn = x.turn := by
  have idle (l : Link) : (l.faulting fault).turn = .of l := by cases fault <;> rfl
  cases x with
  | upTo u d => rfl
  | through u =>
    rw [Progress.turn_through_andThen, funext idle]
    exact Turn.andThen_of u

theorem answered_receiving (settled : Settled l) (active : l.phase.isActive = true)
    (sole : Sole q l) (one : q.expected ≤ q.received + 1) (chunk : Bytes) :
    ∀ x ∈ (l.receiving chunk).turn.effects, x.ended? = some q.ticket →
      Answered q x ∧ (l.receiving chunk).turn.link.phase = .connected := by
  have fed : Settled { l with parser := (l.parser.feed chunk).parser } := { settled with }
  rw [receiving, turn_andThen_faulting]
  exact answered_hearing fed active sole one (l.parser.feed chunk).replies

theorem ended_queueing (c : Command) (l : Link) :
    ∀ x ∈ (l.queueing c).turn.effects, x.ended? = none := by
  rw [queueing]
  split
  · exact ended_writing _ _ _
  · exact fun _ hx => nomatch hx

/-- a command that is sent is done with at once only if it is turned away -/
theorem ended_sending (c : Command) (l : Link) :
    ∀ x ∈ (l.sending c).turn.effects, x.ended? = none ∨
      c.change?.isSome = true ∧ x.ended? = some c.ticket := by
  intro x hx
  unfold sending at hx
  split at hx
  · exact .inl (ended_queueing _ _ x hx)
  · next change _ =>
    rw [Progress.turn_through] at hx
    rw [List.mem_singleton.mp hx]
    exact .inr ⟨by rw [change]; rfl, rfl⟩
  · exact .inl (ended_queueing _ _ x hx)

/-- as long as the connection lasts, only a reply is the end of a command that was not sent now -/
theorem answered_progress (settled : Settled l) (active : l.phase.isActive = true)
    (sole : Sole q l) (one : q.expected ≤ q.received + 1) {e : Event}
    (apart : ∀ c, e = .send c → c.ticket ≠ q.ticket) :
    ∀ x ∈ (l.progress e).turn.effects, x.ended? = some q.ticket →
      Answered q x ∧ (l.progress e).turn.link.phase = .connected := by
  intro x hx done
  -- most events are the end of nothing
  have never (h : x.ended? = none) :
      Answered q x ∧ (l.progress e).turn.link.phase = .connected := by
    rw [h] at done
    cases done
  cases e with
  | send c =>
    rcases ended_sending c l x hx with none | ⟨_, own⟩
    · exact never none
    · exact absurd (Option.some.inj (own.symm.trans done)) (apart c rfl)
  | disconnect t =>
    obtain none | ⟨changes, _⟩ :=
      ended_sending (Command.ofRequest t quit l.config.encoding) l x hx
    · exact never none
    · cases changes
  | attached epoch socket sentinel? =>
    rw [progress] at hx
    split at hx
    · next h =>
      rw [attaching, Progress.turn_through_andThen] at hx
      have waiting : l.waitingCommands = [] := by
        rcases settled.connecting h.2 with ⟨_, none⟩ | ⟨s, h', _, one⟩
        · rw [waitingCommands, none]; rfl
        · rw [waitingCommands, one]; rfl
      rw [waiting] at hx
      rcases List.mem_append.mp hx with attached | later
      · exact never (by rw [List.mem_singleton.mp attached]; rfl)
      · exact never (ended_proceeding _ _ x later)
    · exact never (by rw [List.mem_singleton.mp hx]; rfl)
  | data epoch chunk =>
    rw [progress] at hx ⊢
    split at hx
    · next current =>
      rw [if_pos current]
      exact answered_receiving settled active sole one chunk x hx done
    · cases hx
  | connectFailed epoch err retry => rw [progress] at hx; split at hx <;> cases hx
  | closed epoch => rw [progress] at hx; split at hx <;> cases hx
  | readFailed epoch cause => rw [progress] at hx; split at hx <;> cases hx
  | _ => cases hx

/-! ## `QUIT` on its way -/

/-- to disconnect is to submit `QUIT` as it is -/
theorem disconnect_takes (settled : Settled l) (running : l.stopped = false) (t : Ticket) :
    Leads l [.command (Command.ofRequest t quit l.config.encoding)] (l.disconnect t) := by
  rw [disconnect]
  split
  · next active =>
    obtain ⟨ins, rfl | ⟨phase, _⟩, lead⟩ := queue_leads settled running
      (Command.ofRequest t quit l.config.encoding) l.registry
    · exact lead
    · rw [phase] at active
      cases active
  · exact .after (.rest l (Command.ofRequest t quit l.config.encoding)) (.of settled)

/-- what an event brings in has the ticket of the command that it submits -/
theorem Brings.ticket {e : Event} (h : l.Brings e ins) {c' : Command} (came : .command c' ∈ ins) :
    ∃ c, e.command? l.config.encoding = some c ∧ c'.ticket = c.ticket := by
  have commands := h.commands
  have mem : c' ∈ ins.filterMap Intake.command? := List.mem_filterMap.mpr ⟨_, came, rfl⟩
  generalize ins.filterMap Intake.command? = taken at commands mem
  cases submitted : e.command? l.config.encoding with
  | none =>
    rw [submitted, Option.toList_none, List.forall₂_nil_left_iff] at commands
    rw [commands] at mem
    cases mem
  | some c =>
    rw [submitted] at commands
    cases commands with
    | cons enters rest =>
      cases rest
      rw [List.mem_singleton.mp mem]
      have ticket := congrArg Command.ticket enters.bare
      exact ⟨c, rfl, ticket⟩

theorem sole_step (settled : Settled l) {t : Ticket}
    (sole : Sole (Command.ofRequest t quit l.config.encoding) l) {e : Event}
    (apart : ∀ c, e = .send c → c.ticket ≠ t) :
    Sole (Command.ofRequest t quit l.config.encoding) (l.step e).link := by
  cases running : l.stopped with
  | true =>
    have still : (l.step e).link = l := run_of_stopped running [e]
    rw [still]
    exact sole
  | false =>
    by_cases asked : e = .disconnect t
    · subst asked
      rw [step_of_running running]
      refine (disconnect_takes settled running t).1.sole (Nat.le_refl 1) (fun c came _ => ?_) sole
      cases List.mem_singleton.mp came
      rfl
    · obtain ⟨ins, brings, moves, _⟩ := step_leads settled e
      refine moves.sole (Nat.le_refl 1) (fun c' came same => ?_) sole
      obtain ⟨c, submitted, ticket⟩ := brings.ticket came
      have own : c.ticket = t := ticket.symm.trans same
      cases e with
      | send c =>
        cases submitted
        exact absurd own (apart _ rfl)
      | disconnect t' =>
        cases submitted
        exact absurd (congrArg Event.disconnect own) asked
      | _ => cases submitted

theorem sole_run (settled : Settled l) {t : Ticket}
    (sole : Sole (Command.ofRequest t quit l.config.encoding) l) {events : List Event}
    (apart : ∀ c, .send c ∈ events → c.ticket ≠ t) :
    Sole (Command.ofRequest t quit l.config.encoding) (run events l).link := by
  induction events generalizing l with
  | nil => exact sole
  | cons e rest ih =>
    obtain ⟨ins, _, moves, after⟩ := step_leads settled e
    have next := sole_step settled sole fun c is => apart c (is ▸ List.mem_cons_self)
    rw [← moves.same.2] at next ⊢
    exact ih after next fun c later => apart c (List.mem_cons_of_mem _ later)

end
end Link

namespace Scene

/-- who asked to disconnect shares the ticket with no command -/
theorem ticket_ne_of_asked {events : List Event} {enc : Encoding} {t : Ticket}
    (distinct : ((events.filterMap (Event.command? enc)).map Command.ticket).Nodup)
    (asked : .disconnect t ∈ events) (c : Command) (sent : .send c ∈ events) : c.ticket ≠ t := by
  intro same
  rw [List.map_filterMap] at distinct
  have one : Event.send c = .disconnect t :=
    Link.eq_of_nodup_filterMap distinct sent asked (congrArg some same) rfl
  cases one

/-- an error is the only answer to `QUIT` that the connection outlives -/
theorem error_of_answered {t : Ticket} {enc : Encoding} {x : Effect}
    (h : Link.Answered (Command.ofRequest t Link.quit enc) x) :
    ∃ text, x = .resolved t (.error (.server text)) := by
  obtain ⟨reply, rfl, lasting⟩ := h
  have verb : ((Command.ofRequest t Link.quit enc).accept reply).verb = Link.quit.verb :=
    congrArg Command.verb (Command.bare_accept (Command.ofRequest t Link.quit enc) reply)
  have quits : ((Command.ofRequest t Link.quit enc).accept reply).isQuit = true := by
    rw [Command.isQuit, verb]
    decide
  rw [quits, Bool.true_and] at lasting
  rcases Link.quit_answered t enc reply with good | ⟨text, bad⟩
  · rw [good] at lasting
    cases lasting
  · exact ⟨text, by rw [bad]; rfl⟩

section
variable {s : Scene} {e : Event} {t : Ticket} {x : Effect}

theorem Sound.ended_of_rest (sound : s.Sound) (running : s.link.stopped = false)
    (idle : s.link.phase.isActive = false) (admits : s.Admits e)
    (hx : x ∈ (s.link.step e).effects) (done : x.ended? = some t) :
    (s.link.step e).link.phase = .disconnected := by
  have rouses := sound.rouses running idle admits
  generalize s.link.step e = u at rouses hx
  cases rouses with
  | stays => exact sound.phase_of_not_active idle
  | calls =>
    rw [List.mem_singleton.mp hx] at done
    cases done
  | stops => rfl

/-- who asked to disconnect has the link at rest, or an error and the link connected -/
theorem phase_of_done {role : Role} {config : Config} {events : List Event}
    (plays : (start role config).Plays events)
    (admits : ((start role config).run events).Admits e)
    (asked : .disconnect t ∈ events ++ [e])
    (distinct : (((events ++ [e]).filterMap (Event.command? config.encoding)).map
      Command.ticket).Nodup)
    (hx : x ∈ (((start role config).run events).link.step e).effects)
    (done : x.ended? = some t) :
    (((start role config).run events).link.step e).link.phase = .disconnected ∨
      ∃ text, x = .resolved t (.error (.server text)) ∧
        (((start role config).run events).link.step e).link.phase = .connected := by
  have apart := ticket_ne_of_asked distinct asked
  have sole : Link.Sole (Command.ofRequest t Link.quit config.encoding)
      ((start role config).run events).link := by
    rw [(run_eq (start role config) events).1]
    exact Link.sole_run (l := .start role config) (Link.settled_start role config)
      (fun c hc => nomatch hc) fun c sent => apart c (List.mem_append_left _ sent)
  cases running : ((start role config).run events).link.stopped with
  | true =>
    have still : (((start role config).run events).link.step e).link = _ :=
      Link.run_of_stopped running [e]
    rw [still]
    exact .inl (phase_of_stopped (fun _ => sound_start role config) (fun _ => rfl) plays running)
  | false =>
    have sound := (sound_start role config).run plays running
    cases active : ((start role config).run events).link.phase.isActive with
    | false => exact .inl (sound.ended_of_rest running active admits hx done)
    | true =>
      cases told : ((start role config).run events).link.progress e with
      | upTo v d => exact .inl (sound.rests_of_ended running active admits told).phase
      | through v =>
        have tells := sound.tells running active admits
        have answered := Link.answered_progress sound.settled active sole (Nat.le_refl 1)
          (e := e) fun c is =>
            apart c (by rw [is]; exact List.mem_append_right _ List.mem_cons_self)
        rw [← tells.whole, told] at hx ⊢
        rw [told] at answered
        obtain ⟨byReply, phase⟩ := answered x hx done
        obtain ⟨text, is⟩ := error_of_answered byReply
        exact .inr ⟨text, is, phase⟩

end

/-- **A disconnect that is done leaves no connection behind**, unless the server answers `QUIT` with
an error: then the link is still connected. -/
theorem disconnect_completes (role : Role) (config : Config) (events : List Event) (e : Event)
    (t : Ticket) (plays : (start role config).Plays events)
    (admits : ((start role config).run events).Admits e)
    (asked : .disconnect t ∈ events ++ [e])
    (distinct : (((events ++ [e]).filterMap (Event.command? config.encoding)).map
      Command.ticket).Nodup) :
    let u := ((start role config).run events).link.step e
    ∀ x ∈ u.effects, x.ended? = some t →
      (u.link.phase = .disconnected ∧ u.link.socket? = none ∧ u.link.pending = [] ∧
        u.link.waiting = []) ∨
      ∃ text, x = .resolved t (.error (.server text)) ∧ u.link.phase = .connected := by
  intro u x hx done
  refine (phase_of_done plays admits asked distinct hx done).imp_left fun phase => ?_
  have settled : ((start role config).run events).link.Settled := by
    obtain ⟨_, lead, _⟩ := Link.run_leads (Link.settled_start role config) events
    rw [(run_eq (start role config) events).1]
    exact lead.2
  obtain ⟨_, _, _, after⟩ := Link.step_leads settled e
  obtain ⟨pending, waiting, socket, _⟩ := after.disconnected phase
  exact ⟨phase, socket, pending, waiting⟩

/-- `QUIT` is answered with `OK` -/
theorem disconnect_completes_on_ok :
    let ping := Command.ofRequest 1 (Request.ofVerb "PING") .utf8
    let events : List Event :=
      [.send ping, .attached 1 (.fresh 7) none, .data 1 (Utf8.encode "+PONG\r\n"), .disconnect 2]
    let u := ((start .command .default).run events).link.step (.data 1 (Utf8.encode "+OK\r\n"))
    (∃ x ∈ u.effects, x.ended? = some 2) ∧ u.link.phase = .disconnected ∧ u.link.socket? = none ∧
      u.link.pending = [] ∧ u.link.waiting = [] := by
  intro ping events
  have plays : (start .command .default).Plays events :=
    ⟨Command.fresh_ofRequest _ _ _, List.mem_singleton.mpr rfl, ⟨⟨1, 7, none⟩, by decide, rfl⟩,
      trivial, trivial⟩
  have admits : ((start .command .default).run events).Admits (.data 1 (Utf8.encode "+OK\r\n")) :=
    ⟨⟨1, 7, none⟩, by decide, rfl⟩
  have complete := disconnect_completes .command .default events _ 2 plays admits
    (List.mem_append_left _ (by decide)) (by decide)
  have done : ∃ x ∈ (((start .command .default).run events).link.step
      (.data 1 (Utf8.encode "+OK\r\n"))).effects, x.ended? = some 2 := by decide +kernel
  have parted : (((start .command .default).run events).link.step
      (.data 1 (Utf8.encode "+OK\r\n"))).link.phase ≠ .connected := by decide +kernel
  generalize ((start .command .default).run events).link.step _ = u at complete done parted ⊢
  refine ⟨done, ?_⟩
  obtain ⟨x, hx, ended⟩ := done
  exact (complete x hx ended).resolve_right fun ⟨_, _, phase⟩ => parted phase

/-- `QUIT` is answered with an error: the disconnect is done, and the link is connected -/
theorem connected_after_disconnect :
    let ping := Command.ofRequest 1 (Request.ofVerb "PING") .utf8
    let events : List Event :=
      [.send ping, .attached 1 (.fresh 7) none, .data 1 (Utf8.encode "+PONG\r\n"), .disconnect 2]
    let refusal : Event := .data 1 (Utf8.encode "-ERR no\r\n")
    let u := ((start .command .default).run events).link.step refusal
    (start .command .default).Plays (events ++ [refusal]) ∧
      (∃ x ∈ u.effects, x.ended? = some 2) ∧
      u.link.phase = .connected ∧ u.link.held? = some 7 := by
  intro ping events refusal u
  have plays : (start .command .default).Plays (events ++ [refusal]) :=
    ⟨Command.fresh_ofRequest _ _ _, List.mem_singleton.mpr rfl, ⟨⟨1, 7, none⟩, by decide, rfl⟩,
      trivial, ⟨⟨1, 7, none⟩, by decide, rfl⟩, trivial⟩
  exact ⟨plays, by decide +kernel, by decide +kernel, by decide +kernel⟩

end Scene
end RespLink
