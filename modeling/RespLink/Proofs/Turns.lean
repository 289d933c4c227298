import RespLink.Proofs.Moves
import Mathlib.Data.List.Forall2

/-!
# Turns are chains of moves

Between two events phase, queues and socket of a link fit together (`Settled`), and so they do
between two replies of one chunk.  Each handler is taken apart once, from a settled link:

* `Leads`        a turn is a chain of moves and ends in a settled link;
* `flush_leads`, `proceed_leads`   the pending commands go out; the handshake goes on;
* `queue_leads`, `attach_moves`, `onReply_leads`, `receive_moves`   what events set off;
* `step_leads`   the turn of any event, with what it takes in;
* `run_leads`    the turn of any run: the commands taken in are those submitted, in order.
-/

namespace RespLink
namespace Link

/-- phase, queues and socket between two events -/
structure Settled (l : Link) : Prop where
  disconnected : l.phase = .disconnected → l.pending = [] ∧ l.waiting = [] ∧ l.socket? = none ∧
    (l.stopped = false → l.registry = .empty)
  connecting : l.phase = .connecting → (l.socket? = none ∧ l.waiting = []) ∨
    ∃ s h, l.socket? = some s ∧ l.waiting = [.handshake h]
  connected : l.phase = .connected → l.pending = [] ∧ (∃ s, l.socket? = some s) ∧
    ∀ w ∈ l.waiting, ∃ c, w = .command c
  sound : l.phase ≠ .failed

def Leads (l : Link) (ins : List Intake) (t : Turn) : Prop :=
  Moves l ins t.effects t.link ∧ Settled t.link

section
variable {l m : Link} {ins ins' : List Intake} {es : List Effect} {t : Turn} {f : Link → Turn}

theorem Settled.of_disconnected (phase : l.phase = .disconnected) (pending : l.pending = [])
    (waiting : l.waiting = []) (socket : l.socket? = none)
    (registry : l.stopped = false → l.registry = .empty) : Settled l where
  disconnected _ := ⟨pending, waiting, socket, registry⟩
  connecting h := by rw [phase] at h; cases h
  connected h := by rw [phase] at h; cases h
  sound h := by rw [phase] at h; cases h

theorem Settled.of_connecting (phase : l.phase = .connecting)
    (h : (l.socket? = none ∧ l.waiting = []) ∨
      ∃ s h, l.socket? = some s ∧ l.waiting = [.handshake h]) : Settled l where
  disconnected h := by rw [phase] at h; cases h
  connecting _ := h
  connected h := by rw [phase] at h; cases h
  sound h := by rw [phase] at h; cases h

theorem Settled.of_connected (phase : l.phase = .connected) (pending : l.pending = [])
    (socket : ∃ s, l.socket? = some s) (waiting : ∀ w ∈ l.waiting, ∃ c, w = .command c) :
    Settled l where
  disconnected h := by rw [phase] at h; cases h
  connecting h := by rw [phase] at h; cases h
  connected _ := ⟨pending, socket, waiting⟩
  sound h := by rw [phase] at h; cases h

theorem Settled.phase_cases (settled : Settled l) :
    l.phase = .disconnected ∨ l.phase = .connecting ∨ l.phase = .connected := by
  have sound := settled.sound
  revert sound
  cases l.phase <;> simp

/-- a link that is at rest holds no socket -/
theorem Settled.active_of_held (settled : Settled l) (held : l.held?.isSome = true) :
    l.phase.isActive = true := by
  rcases settled.phase_cases with phase | phase | phase
  · rw [held?, (settled.disconnected phase).2.2.1] at held
    cases held
  · rw [phase]; rfl
  · rw [phase]; rfl

/-- only commands wait unless the link is connecting -/
theorem Settled.connecting_of_handshake (settled : Settled l) {h : Handshake} {rest : List Waiter}
    (front : l.waiting = .handshake h :: rest) :
    l.phase = .connecting ∧ rest = [] ∧ ∃ s, l.socket? = some s := by
  rcases settled.phase_cases with phase | phase | phase
  · rw [(settled.disconnected phase).2.1] at front
    cases front
  · rcases settled.connecting phase with ⟨_, none⟩ | ⟨s, h', held, one⟩
    · rw [none] at front
      cases front
    · rw [one] at front
      cases front
      exact ⟨phase, rfl, s, held⟩
  · obtain ⟨c, hc⟩ := (settled.connected phase).2.2 (.handshake h) (by rw [front]; simp)
    cases hc

theorem Settled.connected_of_command (settled : Settled l) {c : Command} {rest : List Waiter}
    (front : l.waiting = .command c :: rest) : l.phase = .connected := by
  rcases settled.phase_cases with phase | phase | phase
  · rw [(settled.disconnected phase).2.1] at front
    cases front
  · rcases settled.connecting phase with ⟨_, none⟩ | ⟨s, h', held, one⟩
    · rw [none] at front
      cases front
    · rw [one] at front
      cases front
  · exact phase

theorem Leads.of (settled : Settled l) : Leads l [] (.of l) := ⟨.none l, settled⟩

theorem Leads.after (move : Move l ins es m) (lead : Leads m ins' t) :
    Leads l (ins ++ ins') ⟨t.link, es ++ t.effects⟩ :=
  ⟨(Moves.one move).trans lead.1, lead.2⟩

theorem Leads.andThen (a : Leads l ins t) (b : Leads t.link ins' (f t.link)) :
    Leads l (ins ++ ins') (t.andThen f) :=
  ⟨a.1.trans b.1, b.2⟩

/-! ## losing the socket -/

theorem settled_fail_of_active (active : l.phase.isActive = true) (err : Error) (retry : Bool) :
    Settled (l.fail err retry).link := by
  rw [fail_of_active active]
  exact .of_disconnected rfl rfl rfl rfl fun _ => rfl

theorem fail_leads_of_active (active : l.phase.isActive = true) (err : Error) (retry : Bool) :
    Leads l [] (l.fail err retry) :=
  ⟨.one (.lose l err retry active), settled_fail_of_active active err retry⟩

theorem fail_leads (settled : Settled l) (err : Error) (retry : Bool) :
    Leads l [] (l.fail err retry) := by
  cases active : l.phase.isActive with
  | true => exact fail_leads_of_active active err retry
  | false =>
    rw [fail_of_not_active active]
    exact .of settled

theorem phase_fail_of_active (active : l.phase.isActive = true) (err : Error) (retry : Bool) :
    (l.fail err retry).link.phase = .disconnected := by
  rw [fail_of_active active]
  rfl

/-- what could not be written fails as it would have failed before: a command in `pending`, a step
of the handshake without a trace -/
theorem fail_awaiting {s : Socket} {w : Waiter} {rest : List Command}
    (active : l.phase.isActive = true) (held : l.socket? = some s)
    (front : l.pending = w.command?.toList ++ rest) (err : Error) (retry : Bool) :
    (awaiting w s { l with pending := rest }).fail err retry = l.fail err retry := by
  have e : (awaiting w s { l with pending := rest }).teardown err = l.teardown err := by
    have link := teardown_link err (awaiting w s { l with pending := rest })
    have effects := teardown_effects err (awaiting w s { l with pending := rest })
    have commands : (awaiting w s { l with pending := rest }).waitingCommands ++ rest
        = l.waitingCommands ++ l.pending := by
      show (l.waiting ++ [w]).filterMap Waiter.command? ++ rest = _
      rw [front, List.filterMap_append, List.append_assoc]
      cases w <;> rfl
    rw [show (awaiting w s { l with pending := rest }).pending = rest from rfl, commands] at effects
    refine Turn.ext link (effects.trans ?_)
    rw [teardown_effects, held]
    simp [awaiting, Socket.number_write]
  have active' : (awaiting w s { l with pending := rest }).phase.isActive = true := active
  rw [fail, fail, if_pos active, if_pos active', e]

/-! ## writing -/

/-- a frame goes out, or goes out and the socket is lost, or the socket is lost at once -/
theorem write_cases {s : Socket} (held : l.socket? = some s) (w : Waiter) (frame : Bytes) :
    write w frame l = ⟨l.awaiting w s, [.wrote s.number w frame]⟩ ∨
    (∃ cause, write w frame l =
      Turn.andThen ⟨l.awaiting w s, [.wrote s.number w frame]⟩ (fail (.io cause) false)) ∨
    ∃ cause, write w frame l = (l.awaiting w s).fail (.io cause) false := by
  cases written : s.write.written with
  | true =>
    cases fault : s.write.fault? with
    | none =>
      left
      simp [write, held, written, fault, awaiting]
    | some cause =>
      right; left
      exact ⟨cause, by simp [write, held, written, fault, awaiting]⟩
  | false =>
    right; right
    obtain ⟨cause, fault⟩ := Option.isSome_iff_exists.mp (Socket.fault_of_not_written written)
    refine ⟨cause, ?_⟩
    simp [write, held, written, fault, awaiting, Turn.andThen]

theorem flush_of_not_connected (phase : l.phase ≠ .connected) (cs : List Command) :
    flush cs l = .of l := by
  cases cs with
  | nil => rfl
  | cons c rest => rw [flush, if_neg phase]

/-- once the socket is lost nothing more is flushed -/
theorem fail_flush_leads (active : l.phase.isActive = true) (err : Error) (cs : List Command) :
    Leads l [] ((l.fail err false).andThen (flush cs)) := by
  have phase : (l.fail err false).link.phase ≠ .connected := by
    rw [phase_fail_of_active active]
    intro h
    cases h
  rw [Turn.andThen, flush_of_not_connected phase]
  exact (fail_leads_of_active active err false).andThen
    (.of (settled_fail_of_active active err false))

theorem flush_leads {cs : List Command} (phase : l.phase = .connected) (pending : l.pending = cs)
    (socket : ∃ s, l.socket? = some s) (waiting : ∀ w ∈ l.waiting, ∃ c, w = .command c) :
    Leads l [] (flush cs l) := by
  induction cs generalizing l with
  | nil => exact .of (.of_connected phase pending socket waiting)
  | cons c rest ih =>
    obtain ⟨s, held⟩ := socket
    have active : l.phase.isActive = true := by rw [phase]; rfl
    have move := Move.dispatch l c rest s phase held pending
    rw [flush, if_pos phase, dispatch]
    have held' : { l with pending := rest }.socket? = some s := held
    rcases write_cases held' (.command c) c.frame with e | ⟨cause, e⟩ | ⟨cause, e⟩
    · rw [e]
      refine .after move (ih phase rfl ⟨_, rfl⟩ ?_)
      intro w hw
      rcases List.mem_append.mp hw with old | new
      · exact waiting w old
      · exact ⟨c, List.mem_singleton.mp new⟩
    · rw [e, Turn.andThen_assoc]
      exact .after move
        (fail_flush_leads (l := awaiting (.command c) s { l with pending := rest }) active _ rest)
    · rw [e, fail_awaiting active held pending]
      exact fail_flush_leads active (.io cause) rest

/-! ## the handshake -/

theorem proceed_leads {s : Socket} (phase : l.phase = .connecting) (held : l.socket? = some s)
    (waiting : l.waiting = []) (steps : List (Handshake × Bytes)) :
    ∃ es m t, Onward steps l es m ∧ proceed steps l = ⟨t.link, es ++ t.effects⟩ ∧
      Leads m [] t := by
  cases steps with
  | nil =>
    refine ⟨[], { l with phase := .connected }, _, .join, if_pos phase, ?_⟩
    exact flush_leads rfl rfl ⟨s, held⟩ (by simp [waiting])
  | cons step steps =>
    obtain ⟨h, frame⟩ := step
    have active : l.phase.isActive = true := by rw [phase]; rfl
    have ask : Onward ((h, frame) :: steps) l [.wrote s.number (.handshake h) frame]
        (l.awaiting (.handshake h) s) := .ask held
    rcases write_cases held (.handshake h) frame with e | ⟨cause, e⟩ | ⟨cause, e⟩
    · refine ⟨_, _, .of (l.awaiting (.handshake h) s), ask, ?_, .of (.of_connecting phase ?_)⟩
      · rw [proceed, e]
        simp [Turn.of]
      · exact Or.inr ⟨_, h, rfl, by simp [awaiting, waiting]⟩
    · exact ⟨_, _, _, ask, e, fail_leads_of_active (l := l.awaiting (.handshake h) s) active _ _⟩
    · refine ⟨[], l, _, .halt, ?_, fail_leads_of_active active (.io cause) false⟩
      rw [proceed, e, fail_awaiting active held (w := .handshake h) rfl]
      rfl

theorem attach_moves (phase : l.phase = .connecting) (socket : Socket) (sentinel? : Option Nat) :
    ∃ es m t, Onward (l.config.greeting sentinel?) (l.holding socket) es m ∧
      l.attach socket sentinel? = ⟨t.link, .attached l.epoch socket.number sentinel? ::
        (failures (.connection "Connection lost") l.waitingCommands ++ es) ++ t.effects⟩ ∧
      Leads m [] t := by
  obtain ⟨es, m, t, onward, e, lead⟩ := proceed_leads (l := l.holding socket)
    (s := socket) phase rfl rfl (l.config.greeting sentinel?)
  refine ⟨es, m, t, onward, ?_, lead⟩
  have b : beginAuth sentinel? (l.holding socket) = ⟨t.link, es ++ t.effects⟩ := by
    rw [beginAuth_eq]
    exact e
  show Turn.mk (beginAuth sentinel? (l.holding socket)).link
    ([.attached l.epoch socket.number sentinel?]
      ++ failures (.connection "Connection lost") l.waitingCommands
      ++ (beginAuth sentinel? (l.holding socket)).effects) = _
  rw [b]
  simp

theorem attach_leads (phase : l.phase = .connecting) (socket : Socket) (sentinel? : Option Nat) :
    Leads l [.socket socket sentinel?] (l.attach socket sentinel?) := by
  obtain ⟨es, m, t, onward, e, lead⟩ := attach_moves phase socket sentinel?
  rw [e]
  exact .after (.attach l socket sentinel? _ phase onward) lead

/-! ## sending -/

theorem queue_of_disconnected (phase : l.phase = .disconnected) (c : Command) :
    l.queue c = connect { l with pending := l.pending ++ [c] } := by
  simp only [queue, phase]

theorem queue_of_connecting (phase : l.phase = .connecting) (c : Command) :
    l.queue c = .of { l with pending := l.pending ++ [c] } := by
  simp only [queue, phase]

/-- once the command is kept it goes out at once, or it waits, or it is a reason to connect -/
theorem kept_leads (settled : Settled l) (c : Command) (registry : Registry) :
    ∃ ins, (ins = [] ∨ l.phase = .disconnected ∧ ins = [.call]) ∧
      Leads { l with pending := l.pending ++ [c], registry := registry } ins
        (queue c { l with registry := registry }) := by
  rcases settled.phase_cases with phase | phase | phase
  · refine ⟨_, Or.inr ⟨phase, rfl⟩, ?_⟩
    have socket := (settled.disconnected phase).2.2.1
    have waiting := (settled.disconnected phase).2.1
    rw [queue_of_disconnected (l := { l with registry := registry }) phase]
    refine ⟨.one (.dial _ phase socket), ?_⟩
    rw [connect, if_pos phase]
    exact .of_connecting rfl (Or.inl ⟨socket, waiting⟩)
  · refine ⟨_, Or.inl rfl, ?_⟩
    rw [queue_of_connecting (l := { l with registry := registry }) phase]
    exact .of (.of_connecting phase (settled.connecting phase))
  · refine ⟨_, Or.inl rfl, ?_⟩
    obtain ⟨pending, socket, waiting⟩ := settled.connected phase
    -- a connected link writes the command as if it were the last of a flush
    have e : queue c { l with registry := registry }
        = flush [c] { l with pending := l.pending ++ [c], registry := registry } := by
      rw [flush, if_pos phase]
      show _ = (dispatch c { l with pending := [], registry := registry }).andThen .of
      rw [Turn.andThen_of, ← pending]
      simp only [queue, phase]
    have last : l.pending ++ [c] = [c] := by rw [pending, List.nil_append]
    rw [e]
    exact flush_leads phase last socket waiting

theorem queue_leads (settled : Settled l) (running : l.stopped = false) (c : Command)
    (registry : Registry) :
    ∃ ins, (ins = [.command c] ∨ l.phase = .disconnected ∧ ins = [.command c, .call]) ∧
      Leads l ins (queue c { l with registry := registry }) := by
  have keep := Move.keep l c registry running
  obtain ⟨ins, rfl | ⟨phase, rfl⟩, lead⟩ := kept_leads settled c registry
  · exact ⟨_, Or.inl rfl, .after keep lead⟩
  · exact ⟨_, Or.inr ⟨phase, rfl⟩, .after keep lead⟩

end
end Link

/-- a command is submitted, and what the link keeps of it -/
def Command.Enters (c c' : Command) : Prop := c' = c ∨ ∃ replies, c' = c.expecting replies

def Intake.command? : Intake → Option Command
  | command c => some c
  | _ => none

/-- the command that an event submits; to disconnect is to submit `QUIT` -/
def Event.command? (e : Encoding) : Event → Option Command
  | send c => some c
  | disconnect t => some (Command.ofRequest t Link.quit e)
  | _ => none

namespace Link

/-- a command is taken in, and may be a reason to connect -/
def Submits (l : Link) (c : Command) (ins : List Intake) : Prop :=
  ∃ c', c.Enters c' ∧
    (ins = [.command c'] ∨ l.phase = .disconnected ∧ ins = [.command c', .call])

section
variable {l m : Link} {ins ins' : List Intake} {es : List Effect} {t : Turn} {f : Link → Turn}

theorem send_leads (settled : Settled l) (running : l.stopped = false) (c : Command) :
    ∃ ins, Submits l c ins ∧ Leads l ins (l.send c) := by
  unfold send
  split
  · obtain ⟨ins, form, lead⟩ := queue_leads settled running c l.registry
    exact ⟨ins, ⟨c, Or.inl rfl, form⟩, lead⟩
  · exact ⟨_, ⟨c, Or.inl rfl, Or.inl rfl⟩, .after (.refuse l c _) (.of settled)⟩
  · next change _ _ =>
    obtain ⟨ins, form, lead⟩ := queue_leads settled running
      (c.expecting (l.registry.apply change).2) (l.registry.apply change).1
    exact ⟨ins, ⟨_, Or.inr ⟨_, rfl⟩, form⟩, lead⟩

theorem disconnect_leads (settled : Settled l) (running : l.stopped = false) (t : Ticket) :
    ∃ ins, Submits l (Command.ofRequest t quit l.config.encoding) ins ∧
      Leads l ins (l.disconnect t) := by
  rw [disconnect]
  split
  · exact send_leads settled running _
  · refine ⟨_, ⟨_, Or.inl rfl, Or.inl rfl⟩, ?_⟩
    exact .after (.rest l (Command.ofRequest t quit l.config.encoding)) (.of settled)

theorem connect_leads (settled : Settled l) :
    ∃ ins, (ins = [] ∨ l.phase = .disconnected ∧ ins = [.call]) ∧ Leads l ins l.connect := by
  by_cases phase : l.phase = .disconnected
  · refine ⟨_, Or.inr ⟨phase, rfl⟩, .one (.dial l phase (settled.disconnected phase).2.2.1), ?_⟩
    rw [connect, if_pos phase]
    exact .of_connecting rfl
      (Or.inl ⟨(settled.disconnected phase).2.2.1, (settled.disconnected phase).2.1⟩)
  · rw [connect, if_neg phase]
    exact ⟨_, Or.inl rfl, .of settled⟩

/-! ## receiving -/

/-- a reply meets what waits at the front -/
theorem onReply_of_plain {reply : Reply} (plain : l.push? reply = none) :
    l.onReply reply = ⟨(l.accept reply).link,
      .met l.waiting.head? reply :: (l.accept reply).effects⟩ := by
  rw [onReply, plain]
  rfl

/-- a step of the handshake is answered -/
theorem answer_leads (settled : Settled l) {reply : Reply} (plain : l.push? reply = none)
    {h : Handshake} {rest : List Waiter} (front : l.waiting = .handshake h :: rest) :
    Leads l [.reply reply] (l.onReply reply) := by
  obtain ⟨phase, none, s, held⟩ := settled.connecting_of_handshake front
  subst none
  have a : l.accept reply = answered h reply { l with waiting := [] } := by rw [accept, front]
  rw [onReply_of_plain plain, a, front]
  cases passes : h.passes reply with
  | true =>
    obtain ⟨es, m, t, onward, e, lead⟩ := proceed_leads
      (l := { l with waiting := [], sentinels := h.promote l.sentinels })
      phase held rfl (l.config.stepsAfter h)
    rw [answered_of_passes passes, e]
    exact .after (.advance l h [] reply s plain phase held front passes onward) lead
  | false =>
    obtain ⟨err, retry, e⟩ := answered_of_not_passes passes { l with waiting := [] }
    have active : l.phase.isActive = true := by rw [phase]; rfl
    rw [e]
    exact .after (.balk l h [] reply plain front passes)
      (fail_leads_of_active (l := { l with waiting := [] }) active err retry)

/-- a command takes its last reply, and a `QUIT` that succeeds ends the connection -/
theorem complete_leads (settled : Settled l) {reply : Reply} (plain : l.push? reply = none)
    {c : Command} {rest : List Waiter} (front : l.waiting = .command c :: rest)
    (last : (c.accept reply).complete = true) : Leads l [.reply reply] (l.onReply reply) := by
  have phase := settled.connected_of_command front
  obtain ⟨pending, socket, waiting⟩ := settled.connected phase
  have a : l.accept reply = complete (c.accept reply) { l with waiting := rest } := by
    rw [accept, front]
    exact if_pos last
  rw [onReply_of_plain plain, a, front, complete]
  by_cases quits : ((c.accept reply).isQuit && (c.accept reply).succeeded) = true
  · have g : closeGracefully { l with waiting := rest }
        = teardown (.connection "Connection closed") { l with waiting := rest } :=
      if_pos phase
    rw [if_pos quits, g]
    refine ⟨.one ?_, .of_disconnected rfl rfl rfl rfl fun _ => rfl⟩
    have part := Move.part l c rest reply (.connection "Connection closed") plain phase front last
    rw [← c.ticket_accept reply] at part
    exact part
  · rw [if_neg quits, Turn.of_andThen]
    refine ⟨.one ?_, .of_connected phase pending socket fun w hw => ?_⟩
    · have finish := Move.finish l c rest reply plain front last
      rw [← c.ticket_accept reply] at finish
      exact finish
    · exact waiting w (by rw [front]; exact List.mem_cons_of_mem _ hw)

/-- a command takes a reply, and awaits more -/
theorem take_leads (settled : Settled l) {reply : Reply} (plain : l.push? reply = none)
    {c : Command} {rest : List Waiter} (front : l.waiting = .command c :: rest)
    (more : (c.accept reply).complete = false) : Leads l [.reply reply] (l.onReply reply) := by
  have phase := settled.connected_of_command front
  obtain ⟨pending, socket, waiting⟩ := settled.connected phase
  have a : l.accept reply = .of { l with waiting := .command (c.accept reply) :: rest } := by
    rw [accept, front]
    exact if_neg (by rw [more]; decide)
  rw [onReply_of_plain plain, a, front]
  refine .after (.take l c rest reply plain front more)
    (.of (.of_connected phase pending socket fun w hw => ?_))
  rcases List.mem_cons.mp hw with first | other
  · exact ⟨_, first⟩
  · exact waiting w (by rw [front]; exact List.mem_cons_of_mem _ other)

theorem accept_leads (settled : Settled l) (reply : Reply) (plain : l.push? reply = none) :
    Leads l [.reply reply] (l.onReply reply) := by
  cases front : l.waiting with
  | nil =>
    have a : l.accept reply = .of l := by rw [accept, front]
    rw [onReply_of_plain plain, a, front]
    exact .after (.drop l reply plain front) (.of settled)
  | cons w rest =>
    cases w with
    | handshake h => exact answer_leads settled plain front
    | command c =>
      cases last : (c.accept reply).complete with
      | false => exact take_leads settled plain front last
      | true => exact complete_leads settled plain front last

theorem onReply_leads (settled : Settled l) (reply : Reply) :
    Leads l [.reply reply] (l.onReply reply) := by
  cases push : l.push? reply with
  | none => exact accept_leads settled reply push
  | some p =>
    rw [onReply, push]
    refine ⟨.one (.push l reply _ (by rw [push]; simp) ?_), settled⟩
    intro e he
    obtain ⟨mailbox, _, rfl⟩ := List.mem_map.mp he
    exact ⟨mailbox, p, rfl⟩

/-- the replies that meet the socket they came on, all of them if it is still in use -/
theorem onReplies_leads (settled : Settled l) (epoch : Nat) (replies : List Reply) :
    ∃ heard, heard <+: replies ∧ Leads l (heard.map .reply) (onReplies epoch replies l) ∧
      ((onReplies epoch replies l).link.epoch = epoch → heard = replies) := by
  induction replies generalizing l with
  | nil => exact ⟨[], List.prefix_rfl, .of settled, fun _ => rfl⟩
  | cons reply rest ih =>
    rw [onReplies]
    split
    · have lead := onReply_leads settled reply
      obtain ⟨heard, sub, leads, all⟩ := ih lead.2
      refine ⟨reply :: heard, List.cons_prefix_cons.mpr ⟨rfl, sub⟩, lead.andThen leads, ?_⟩
      intro same
      rw [all same]
    · next other =>
      exact ⟨[], List.nil_prefix, .of settled, fun same => absurd same other⟩

theorem onFault_leads (settled : Settled l) (epoch : Nat) (fault : Option Malformed) :
    Leads l [] (onFault epoch fault l) := by
  cases fault with
  | none => exact .of settled
  | some why =>
    show Leads l [] (if l.epoch = epoch then l.fail why.toError false else .of l)
    split
    · exact fail_leads settled _ _
    · exact .of settled

/-- an active link does not survive a fault -/
theorem epoch_onFault {epoch : Nat} {fault : Option Malformed}
    (same : (onFault epoch fault l).link.epoch = epoch) :
    l.epoch = epoch ∧ ((onFault epoch fault l).link.phase.isActive = true → fault = none) := by
  cases fault with
  | none => exact ⟨same, fun _ => rfl⟩
  | some why =>
    by_cases current : l.epoch = epoch
    · refine ⟨current, fun active => ?_⟩
      have e : onFault epoch (some why) l = l.fail why.toError false := if_pos current
      rw [e] at same active
      cases before : l.phase.isActive with
      | true =>
        rw [fail_of_active before] at same
        have next : l.epoch + 1 = epoch := same
        omega
      | false =>
        rw [fail_of_not_active before] at active
        exact absurd active (by rw [Turn.of, before]; decide)
    · have e : onFault epoch (some why) l = .of l := if_neg current
      rw [e] at same
      exact absurd same current

/-- the replies of a chunk are heard as long as the socket is in use; if it still is in the end, all
of them were heard and the bytes are sound so far -/
theorem receive_moves (settled : Settled l) (chunk : Bytes) :
    ∃ heard, heard <+: (l.parser.feed chunk).replies ∧
      Leads { l with parser := (l.parser.feed chunk).parser } (heard.map .reply)
        (l.receive chunk) ∧
      ((l.receive chunk).link.epoch = l.epoch → heard = (l.parser.feed chunk).replies ∧
        ((l.receive chunk).link.phase.isActive = true → (l.parser.feed chunk).fault = none)) := by
  have fed : Settled { l with parser := (l.parser.feed chunk).parser } :=
    { settled with }
  obtain ⟨heard, sub, lead, all⟩ := onReplies_leads fed l.epoch (l.parser.feed chunk).replies
  have fault := onFault_leads lead.2 l.epoch (l.parser.feed chunk).fault
  have whole := lead.andThen fault
  rw [List.append_nil] at whole
  refine ⟨heard, sub, whole, fun same => ?_⟩
  obtain ⟨current, sound⟩ := epoch_onFault same
  exact ⟨all current, sound⟩

/-! ## events -/

theorem shutdown_leads (l : Link) : Leads l [] l.shutdown := by
  refine ⟨.one (.stop l), .of_disconnected rfl rfl rfl rfl ?_⟩
  intro running
  cases running

theorem spoil_leads (settled : Settled l) (f : Socket → Socket)
    (same : ∀ s, (f s).number = s.number) :
    Leads l [] (.of { l with socket? := l.socket?.map f }) := by
  refine ⟨.one (.spoil l f same), ?_⟩
  rcases settled.phase_cases with phase | phase | phase
  · obtain ⟨pending, waiting, socket, registry⟩ := settled.disconnected phase
    exact .of_disconnected phase pending waiting (congrArg (Option.map f) socket) registry
  · refine .of_connecting phase ?_
    rcases settled.connecting phase with ⟨none, waiting⟩ | ⟨s, h, held, waiting⟩
    · exact Or.inl ⟨congrArg (Option.map f) none, waiting⟩
    · exact Or.inr ⟨f s, h, congrArg (Option.map f) held, waiting⟩
  · obtain ⟨pending, ⟨s, held⟩, waiting⟩ := settled.connected phase
    exact .of_connected phase pending ⟨f s, congrArg (Option.map f) held⟩ waiting

/-- what an event brings -/
def Brings (l : Link) : Event → List Intake → Prop
  | .send c, ins => Submits l c ins
  | .disconnect t, ins => Submits l (Command.ofRequest t quit l.config.encoding) ins
  | .attached _ socket sentinel?, ins => ins = [.socket socket sentinel?]
  | .data _ chunk, ins => ins = [] ∨
    ∃ heard, heard <+: (l.parser.feed chunk).replies ∧ ins = .chunk chunk :: heard.map .reply
  | .retry, ins => ins = [] ∨ l.phase = .disconnected ∧ ins = [.call]
  | _, ins => ins = []

theorem stopped_leads (settled : Settled l) (e : Event) :
    ∃ ins, Brings l e ins ∧ Leads l ins (l.stoppedStep e) := by
  cases e with
  | send c => exact ⟨_, ⟨c, Or.inl rfl, Or.inl rfl⟩, .after (.refuse l c _) (.of settled)⟩
  | disconnect t =>
    refine ⟨_, ⟨_, Or.inl rfl, Or.inl rfl⟩, ?_⟩
    exact .after (.rest l (Command.ofRequest t quit l.config.encoding)) (.of settled)
  | attached epoch socket sentinel? => exact ⟨_, rfl, .after (.pass l _ _) (.of settled)⟩
  | data epoch chunk => exact ⟨[], Or.inl rfl, .of settled⟩
  | retry => exact ⟨[], Or.inl rfl, .of settled⟩
  | _ => exact ⟨[], rfl, .of settled⟩

theorem running_leads (settled : Settled l) (running : l.stopped = false) (e : Event) :
    ∃ ins, Brings l e ins ∧ Leads l ins (l.runningStep e) := by
  cases e with
  | send c => exact send_leads settled running c
  | disconnect t => exact disconnect_leads settled running t
  | attached epoch socket sentinel? =>
    refine ⟨_, rfl, ?_⟩
    rw [runningStep]
    split
    · next h => exact attach_leads h.2 socket sentinel?
    · exact .after (.pass l _ _) (.of settled)
  | connectFailed epoch err retry =>
    refine ⟨_, rfl, ?_⟩
    rw [runningStep]
    split
    · exact fail_leads settled _ _
    · exact .of settled
  | data epoch chunk =>
    rw [runningStep]
    split
    · obtain ⟨heard, sub, lead, _⟩ := receive_moves settled chunk
      exact ⟨_, Or.inr ⟨heard, sub, rfl⟩, .after (.hear l chunk) lead⟩
    · exact ⟨_, Or.inl rfl, .of settled⟩
  | closed epoch =>
    refine ⟨_, rfl, ?_⟩
    rw [runningStep]
    split
    · exact fail_leads settled _ _
    · exact .of settled
  | readFailed epoch cause =>
    refine ⟨_, rfl, ?_⟩
    rw [runningStep]
    split
    · exact fail_leads settled _ _
    · exact .of settled
  | retry => exact connect_leads settled
  | writesFail frames cause => exact ⟨_, rfl, spoil_leads settled _ fun _ => rfl⟩
  | flushesFail frames cause => exact ⟨_, rfl, spoil_leads settled _ fun _ => rfl⟩
  | shutdown => exact ⟨_, rfl, shutdown_leads l⟩

/-- **The turn of an event is a chain of moves from one settled link to another.** -/
theorem step_leads (settled : Settled l) (e : Event) :
    ∃ ins, Brings l e ins ∧ Leads l ins (l.step e) := by
  cases running : l.stopped with
  | true =>
    rw [step_of_stopped running]
    exact stopped_leads settled e
  | false =>
    rw [step_of_running running]
    exact running_leads settled running e

/-! ## runs -/

theorem Submits.commands {c : Command} (h : Submits l c ins) :
    List.Forall₂ Command.Enters [c] (ins.filterMap Intake.command?) := by
  obtain ⟨c', enters, rfl | ⟨_, rfl⟩⟩ := h <;> exact .cons enters .nil

theorem Brings.commands {e : Event} (h : Brings l e ins) :
    List.Forall₂ Command.Enters (e.command? l.config.encoding).toList
      (ins.filterMap Intake.command?) := by
  cases e with
  | send c => exact Submits.commands h
  | disconnect t => exact Submits.commands h
  | data epoch chunk =>
    rcases h with rfl | ⟨heard, _, rfl⟩
    · exact .nil
    · have none : (heard.map Intake.reply).filterMap Intake.command? = [] := by
        rw [List.filterMap_map]
        exact List.filterMap_eq_nil_iff.mpr fun _ _ => rfl
      rw [List.filterMap_cons_none rfl, none]
      exact .nil
  | retry =>
    rcases h with rfl | ⟨_, rfl⟩ <;> exact .nil
  | _ =>
    subst h
    exact .nil

/-- **The turn of a run is a chain of moves**, and the commands that it takes in are those that were
submitted, in order. -/
theorem run_leads (settled : Settled l) (events : List Event) :
    ∃ ins, Leads l ins (run events l) ∧
      List.Forall₂ Command.Enters (events.filterMap (Event.command? l.config.encoding))
        (ins.filterMap Intake.command?) := by
  induction events generalizing l with
  | nil => exact ⟨[], .of settled, .nil⟩
  | cons e rest ih =>
    obtain ⟨ins, brings, lead⟩ := step_leads settled e
    obtain ⟨more, leads, commands⟩ := ih lead.2
    refine ⟨ins ++ more, lead.andThen leads, ?_⟩
    rw [lead.1.same.2] at commands
    rw [List.filterMap_append, List.filterMap_cons]
    have first := brings.commands
    cases h : e.command? l.config.encoding with
    | none =>
      rw [h] at first
      exact List.rel_append first commands
    | some c =>
      rw [h] at first
      exact List.rel_append first commands

theorem settled_start (role : Role) (config : Config) : Settled (start role config) :=
  .of_disconnected rfl rfl rfl rfl fun _ => rfl

end
end Link
end RespLink
