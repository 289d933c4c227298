import RespLink.Proofs.Latecomers
import RespLink.Proofs.Streams

/-!
# Where bytes are cut

A chunk is parsed as a whole before its first reply meets the link.  When the same bytes come in
several chunks, replies are met in between, and what they set off may be a step of the handshake, or
the end of the connection.  It comes to the same.

* `Parser.Sound`     a parser that has met no fault;
* `Blind`            a handler that does not see the parser: all handlers of a reply are blind;
* `letGo_reading`    where a connection ends, it does not matter what was parsed before;
* `receive_append`   two chunks are one, as long as the socket is in use;
* `run_cuts`         any chunks are one;
* `Reached`          a scene that a play leads to, where all that holds in every play holds;
* `run_data_eq_of_flatten_eq`   two ways of cutting come to the same in every play;
* `joined`           events with neighbouring chunks joined: they lead to the same.
-/

namespace RespLink

/-! ## parsers that met no fault -/

namespace Parser

/-- the parser stands where a fresh one does after some bytes, with nothing wrong in them -/
def Sound (p : Parser) : Prop := ∃ bs, (Fed.of bs).parser = p ∧ (Fed.of bs).fault = none

section
variable {p : Parser}

theorem Sound.resumes (h : p.Sound) : p.Resumes := by
  obtain ⟨bs, rfl, _⟩ := h
  exact Fed.resumes_of bs

/-- no bytes, no reply -/
theorem Sound.feed_nil (h : p.Sound) : p.feed [] = ⟨p, [], none⟩ := by
  obtain ⟨bs, rfl, fault⟩ := h
  have again := Fed.of_append bs []
  rw [List.append_nil, Fed.feed] at again
  have parser := congrArg Fed.parser again
  have replies := congrArg Fed.replies again
  have still := congrArg Fed.fault again
  refine Fed.mk.injEq .. ▸ ⟨parser.symm, ?_, still.symm.trans fault⟩
  exact List.self_eq_append_right.mp replies

theorem Sound.feed (h : p.Sound) {chunk : Bytes} (fault : (p.feed chunk).fault = none) :
    (p.feed chunk).parser.Sound := by
  obtain ⟨bs, rfl, _⟩ := h
  refine ⟨bs ++ chunk, ?_, ?_⟩ <;> rw [Fed.of_append]
  · rfl
  · exact fault

/-- after a fault more bytes change nothing but the parser -/
theorem Sound.feed_append_of_fault (h : p.Sound) {chunk : Bytes} {why : Malformed}
    (fault : (p.feed chunk).fault = some why) (more : Bytes) :
    (p.feed (chunk ++ more)).replies = (p.feed chunk).replies ∧
      (p.feed (chunk ++ more)).fault = some why := by
  have resumes := h.resumes
  rw [Fed.feed_of_resumes resumes] at fault
  rw [Fed.feed_of_resumes resumes, Fed.feed_of_resumes resumes, ← List.append_assoc]
  exact Fed.of_append_of_fault fault more

end
end Parser

/-! ## handlers and the parser -/

namespace Link

/-- the link with another parser -/
def reading (p : Parser) (l : Link) : Link := { l with parser := p }

end Link

namespace Progress

def reading (p : Parser) : Progress → Progress
  | through t => through ⟨t.link.reading p, t.effects⟩
  | upTo t d => upTo ⟨t.link.reading p, t.effects⟩ d

theorem andThen_assoc (x : Progress) (f g : Link → Progress) :
    (x.andThen f).andThen g = x.andThen fun l => (f l).andThen g := by
  cases x with
  | upTo t d => rfl
  | through t =>
    simp only [andThen]
    cases f t.link with
    | upTo u d => rfl
    | through u =>
      dsimp only
      cases g u.link <;> simp only [List.append_assoc]

end Progress

/-- a handler that does not see the parser -/
def Blind (f : Link → Progress) : Prop := ∀ p l, f (l.reading p) = (f l).reading p

section
variable {f g : Link → Progress} {l : Link}

theorem Progress.reading_andThen (blind : Blind f) (p : Parser) (x : Progress) :
    (x.andThen f).reading p = (x.reading p).andThen f := by
  cases x with
  | upTo t d => rfl
  | through t =>
    rw [reading, andThen, andThen, blind]
    cases f t.link <;> rfl

theorem Blind.andThen (first : Blind f) (later : Blind g) : Blind fun l => (f l).andThen g := by
  intro p l
  rw [Progress.reading_andThen later, ← first]

/-- who does not see the parser leaves it alone -/
theorem Blind.parser (blind : Blind f) (l : Link) : (f l).turn.link.parser = l.parser := by
  have same : f l = (f l).reading l.parser := blind l.parser l
  rw [same]
  cases f l <;> rfl

end

namespace Link

theorem blind_writing (w : Waiter) (frame : Bytes) : Blind (writing w frame) := by
  intro p l
  have socket : (l.reading p).socket? = l.socket? := rfl
  rw [writing, writing, socket]
  cases l.socket? with
  | none => rfl
  | some s =>
    dsimp only
    cases s.write.fault? <;> rfl

theorem blind_flushing (cs : List Command) : Blind (flushing cs) := by
  induction cs with
  | nil => exact fun _ _ => rfl
  | cons c rest ih =>
    intro p l
    have first := blind_writing (.command c) c.frame p { l with pending := rest }
    rw [flushing, flushing, Progress.reading_andThen ih, ← first]
    rfl

theorem blind_proceeding (steps : List (Handshake × Bytes)) : Blind (proceeding steps) := by
  intro p l
  cases steps with
  | nil => exact blind_flushing l.pending p { l with phase := .connected }
  | cons step steps => exact blind_writing _ _ p l

theorem blind_accepting (reply : Reply) : Blind (accepting reply) := by
  intro p l
  have waiting : (l.reading p).waiting = l.waiting := rfl
  rw [accepting, accepting, waiting]
  cases l.waiting with
  | nil => rfl
  | cons w rest =>
    cases w with
    | handshake h =>
      dsimp only
      cases h.refusal? reply with
      | some why => rfl
      | none =>
        exact blind_proceeding (l.config.stepsAfter h) p
          { l with waiting := rest, sentinels := h.promote l.sentinels }
    | command c =>
      dsimp only
      split
      · split <;> rfl
      · rfl

theorem blind_replying (reply : Reply) : Blind (replying reply) := by
  intro p l
  have push : (l.reading p).push? reply = l.push? reply := rfl
  rw [replying, replying, push]
  cases l.push? reply with
  | some push => rfl
  | none =>
    exact (Progress.reading_andThen (blind_accepting reply) p
      (.through ⟨l, [.met l.waiting.head? reply]⟩)).symm

theorem blind_hearing (replies : List Reply) : Blind (hearing replies) := by
  induction replies with
  | nil => exact fun _ _ => rfl
  | cons reply rest ih => exact (blind_replying reply).andThen ih

/-- where a connection ends, it does not matter what was parsed before -/
theorem letGo_reading {l : Link} (active : l.phase.isActive = true) (d : End) (p : Parser) :
    (l.reading p).letGo d = l.letGo d := by
  cases d with
  | lost why =>
    have active' : (l.reading p).phase.isActive = true := active
    show (l.reading p).fail _ _ = l.fail _ _
    rw [fail_of_active active, fail_of_active active']
    rfl
  | parted | dropped => rfl

/-! ## two chunks -/

theorem hearing_append (replies more : List Reply) (l : Link) :
    hearing (replies ++ more) l = (hearing replies l).andThen (hearing more) := by
  induction replies generalizing l with
  | nil =>
    show hearing more l = (Progress.through (.of l)).andThen (hearing more)
    rw [Progress.andThen]
    show _ = match hearing more l with | .through u => _ | .upTo u d => _
    cases hearing more l <;> rfl
  | cons reply rest ih =>
    rw [List.cons_append, hearing, hearing, Progress.andThen_assoc]
    exact congrArg _ (funext ih)

section
variable {l m : Link} {a b : Bytes}

/-- what a chunk sets off, if its replies end the connection -/
theorem receiving_of_upTo {t : Turn} {d : End}
    (heard : hearing (l.parser.feed a).replies l = .upTo t d) :
    l.receiving a = .upTo ⟨t.link.reading (l.parser.feed a).parser, t.effects⟩ d := by
  have blind := blind_hearing (l.parser.feed a).replies (l.parser.feed a).parser l
  rw [heard] at blind
  show (hearing _ (l.reading _)).andThen _ = _
  rw [blind]
  rfl

/-- and if they do not -/
theorem receiving_of_through {t : Turn}
    (heard : hearing (l.parser.feed a).replies l = .through t) :
    l.receiving a = (Progress.through
      ⟨t.link.reading (l.parser.feed a).parser, t.effects⟩).andThen
        (faulting (l.parser.feed a).fault) := by
  have blind := blind_hearing (l.parser.feed a).replies (l.parser.feed a).parser l
  rw [heard] at blind
  show (hearing _ (l.reading _)).andThen _ = _
  rw [blind]
  rfl

/-- an end is the same whatever was parsed before it -/
theorem whole_upTo_reading {t : Turn} (active : t.link.phase.isActive = true) (d : End)
    (p q : Parser) :
    (Progress.upTo ⟨t.link.reading p, t.effects⟩ d).whole
      = (Progress.upTo ⟨t.link.reading q, t.effects⟩ d).whole := by
  show Turn.andThen _ _ = Turn.andThen _ _
  rw [Turn.andThen, Turn.andThen]
  dsimp only
  rw [letGo_reading active, letGo_reading active]

/-- **Two chunks set off what one does.** -/
theorem receiving_append (sound : l.parser.Sound)
    (lasts : (hearing (l.parser.feed a).replies l).turn.link.phase.isActive = true) :
    (l.receiving (a ++ b)).whole = ((l.receiving a).andThen (receiving b)).whole := by
  cases fault : (l.parser.feed a).fault with
  | some why =>
    -- the bytes behind a fault are not met
    obtain ⟨replies, fault'⟩ := sound.feed_append_of_fault fault b
    cases heard : hearing (l.parser.feed a).replies l with
    | upTo t d =>
      rw [heard] at lasts
      have heard' := heard
      rw [← replies] at heard'
      rw [receiving_of_upTo heard, receiving_of_upTo heard']
      exact whole_upTo_reading lasts d _ _
    | through t =>
      rw [heard] at lasts
      have heard' := heard
      rw [← replies] at heard'
      rw [receiving_of_through heard, receiving_of_through heard', fault, fault']
      exact whole_upTo_reading (t := ⟨t.link, t.effects ++ []⟩) lasts _ _ _
  | none =>
    have feed : l.parser.feed (a ++ b) =
        ⟨((l.parser.feed a).parser.feed b).parser,
          (l.parser.feed a).replies ++ ((l.parser.feed a).parser.feed b).replies,
          ((l.parser.feed a).parser.feed b).fault⟩ :=
      (Parser.feed_feed sound.resumes a b).symm
    cases heard : hearing (l.parser.feed a).replies l with
    | upTo t d =>
      have heard' : hearing (l.parser.feed (a ++ b)).replies l = .upTo t d := by
        rw [feed, hearing_append, heard]
        rfl
      rw [heard] at lasts
      rw [receiving_of_upTo heard, receiving_of_upTo heard']
      exact whole_upTo_reading lasts d _ _
    | through t =>
      have blind (p : Parser) := blind_hearing (l.parser.feed a).replies p l
      rw [receiving_of_through heard, fault]
      show Progress.whole (Progress.andThen (hearing _ (l.reading _)) _) = _
      rw [feed, hearing_append, blind, heard, Progress.andThen_assoc]
      show _ = ((Progress.through ⟨t.link.reading _, t.effects ++ []⟩).andThen (receiving b)).whole
      rw [List.append_nil]
      rfl

/-- the socket is still in use, and the next chunk may follow; or the connection has ended, and the
next chunk makes no difference -/
theorem receive_append (settled : Settled l) (active : l.phase.isActive = true)
    (sound : l.parser.Sound) (a b : Bytes) :
    ((l.receive a).link.Settled ∧ Lasts l (l.receive a).link ∧ (l.receive a).link.parser.Sound ∧
      l.receive (a ++ b) = (l.receive a).andThen (receive b)) ∨
    ((l.receive a).link.epoch ≠ l.epoch ∧ l.receive (a ++ b) = l.receive a) := by
  have tells := tells_receive settled active a
  have both := receiving_append (b := b) sound
    ((tells_onReplies settled active rfl (l.parser.feed a).replies).lasts.active active)
  rw [(tells_receive settled active (a ++ b)).whole] at both
  obtain ⟨told, lasts, _, _⟩ := tells
  obtain ⟨_, _, ⟨_, settled'⟩, _⟩ := receive_moves settled a
  cases progress : l.receiving a with
  | through u =>
    rw [progress] at told lasts both
    have told : u = l.receive a := told
    have parser : u.link.parser.Sound := by
      cases heard : hearing (l.parser.feed a).replies l with
      | upTo t d =>
        rw [receiving_of_upTo heard] at progress
        cases progress
      | through t =>
        rw [receiving_of_through heard] at progress
        cases fault : (l.parser.feed a).fault with
        | some why =>
          rw [fault] at progress
          cases progress
        | none =>
          rw [fault] at progress
          cases progress
          exact sound.feed fault
    subst told
    have later := (tells_receive settled' (lasts.active active) b).whole
    rw [Progress.whole_through_andThen, Turn.andThen, later] at both
    exact .inl ⟨settled', lasts, parser, both⟩
  | upTo u d =>
    rw [progress] at told lasts both
    refine .inr ⟨?_, both.trans told⟩
    have lasts : Lasts l u.link := lasts
    have next := (letGo_rests (lasts.active active) d).2
    rw [← told]
    show (u.link.letGo d).link.epoch ≠ l.epoch
    rw [next, lasts.epoch]
    exact Nat.succ_ne_self _

/-! ## any chunks -/

/-- bytes of another socket are overlooked -/
theorem run_of_stale {epoch : Nat} (stale : l.epoch ≠ epoch) (cuts : List Bytes) :
    run (cuts.map (.data epoch)) l = .of l := by
  induction cuts with
  | nil => rfl
  | cons chunk rest ih =>
    have step : l.step (.data epoch chunk) = .of l := step_of_stale rfl stale
    rw [List.map_cons, run, step, Turn.of_andThen]
    exact ih

/-- **Any chunks set off what all their bytes do at once.** -/
theorem run_cuts (settled : Settled l) (active : l.phase.isActive = true)
    (running : l.stopped = false) (sound : l.parser.Sound) (cuts : List Bytes) :
    run (cuts.map (.data l.epoch)) l = l.receive cuts.flatten := by
  induction cuts generalizing l with
  | nil =>
    show Turn.of l = _
    rw [List.flatten_nil, receive, sound.feed_nil]
    rfl
  | cons chunk rest ih =>
    have step : l.step (.data l.epoch chunk) = l.receive chunk :=
      (step_of_running running _).trans (if_pos rfl)
    rw [List.map_cons, run, step, List.flatten_cons]
    rcases receive_append settled active sound chunk rest.flatten with
      ⟨settled', lasts, sound', both⟩ | ⟨other, both⟩
    · have later := ih settled' (lasts.active active) (lasts.stopped.trans running) sound'
      rw [lasts.epoch] at later
      rw [both, Turn.andThen, Turn.andThen, later]
    · rw [both]
      exact Turn.andThen_idle (run_of_stale other rest)

end
end Link

namespace Scene

/-- a scene that a play leads to -/
def Reached (s : Scene) : Prop :=
  ∃ role config events, (start role config).Plays events ∧ (start role config).run events = s

section
variable {s : Scene} {e : Event} {events : List Event}

theorem reached_start (role : Role) (config : Config) : (start role config).Reached :=
  ⟨role, config, [], trivial, rfl⟩

theorem Reached.run (h : s.Reached) (plays : s.Plays events) : (s.run events).Reached := by
  obtain ⟨role, config, seen, before, rfl⟩ := h
  exact ⟨role, config, seen ++ events, plays_append.mpr ⟨before, plays⟩, run_append _ _ _⟩

theorem Reached.next (h : s.Reached) (admits : s.Admits e) : (s.next e).Reached :=
  h.run (show s.Plays [e] from ⟨admits, trivial⟩)

theorem Reached.dated (h : s.Reached) : s.Dated := by
  obtain ⟨role, config, seen, plays, rfl⟩ := h
  exact (dated_start role config).run (Link.settled_start role config) plays

theorem Reached.settled (h : s.Reached) : s.link.Settled := by
  obtain ⟨role, config, seen, plays, rfl⟩ := h
  obtain ⟨_, ⟨_, settled⟩, _⟩ := Link.run_leads (Link.settled_start role config) seen
  rw [(run_eq _ seen).1]
  exact settled

theorem Reached.running_of_held (h : s.Reached) (held : s.link.held?.isSome = true) :
    s.link.stopped = false := by
  cases stopped : s.link.stopped with
  | false => rfl
  | true =>
    rw [h.dated.ended stopped] at held
    cases held

/-- a socket of the link's own epoch is in use -/
theorem Reached.held_of_opened (h : s.Reached) (opened : ∃ o ∈ s.openings, o.epoch = s.link.epoch) :
    s.link.held?.isSome = true := by
  obtain ⟨o, ho, current⟩ := opened
  rw [← h.dated.socket_inUse?, (h.dated.epoch_eq_iff ho).mp current]
  rfl

/-- the parser of a socket in use has met no fault -/
theorem Reached.parser (h : s.Reached) (held : s.link.held?.isSome = true) :
    s.link.parser.Sound := by
  have running := h.running_of_held held
  obtain ⟨role, config, seen, plays, rfl⟩ := h
  obtain ⟨fault, parser, _⟩ := (heard_of_plays role config plays).now running held
  obtain ⟨met, _, _, same, _⟩ := Parser.feedChunks_eq_feedOn .empty
    (bytesOf ((start role config).run seen).link.epoch seen)
  rw [same, Parser.feedOn_empty] at fault parser
  exact ⟨met.flatten, parser, fault⟩

/-- events that are no outcome of an attempt -/
theorem run_eq_after (other : ∀ e ∈ events, e.outcome? = none) :
    s.run events = s.after (Link.run events s.link) := by
  induction events generalizing s with
  | nil =>
    show s = Scene.mk s.link (s.calls ++ []) (s.past ++ [])
    rw [List.append_nil, List.append_nil]
  | cons e rest ih =>
    have next : s.next e = s.after (s.link.step e) := by
      rw [next, other e List.mem_cons_self]
      rfl
    show (s.next e).run rest = _
    rw [ih fun e he => other e (List.mem_cons_of_mem _ he), next, after_after]
    rfl

/-- a socket that came into use has done so after any event -/
theorem opened_next {epoch : Nat} (opened : ∃ o ∈ s.openings, o.epoch = epoch) (e : Event) :
    ∃ o ∈ (s.next e).openings, o.epoch = epoch := by
  obtain ⟨o, ho, same⟩ := opened
  refine ⟨o, ?_, same⟩
  rw [next, openings_after]
  exact List.mem_append_left _ ho

theorem plays_cuts {epoch : Nat} (opened : ∃ o ∈ s.openings, o.epoch = epoch)
    (cuts : List Bytes) : s.Plays (cuts.map (.data epoch)) := by
  induction cuts generalizing s with
  | nil => exact trivial
  | cons chunk rest ih => exact ⟨opened, ih (opened_next opened _)⟩

/-- what any chunks of a socket set off: nothing if it is not in use any more -/
theorem Reached.run_cuts (h : s.Reached) {epoch : Nat}
    (opened : ∃ o ∈ s.openings, o.epoch = epoch) (cuts : List Bytes) :
    s.run (cuts.map (.data epoch)) =
      s.after (if s.link.epoch = epoch then s.link.receive cuts.flatten else .of s.link) := by
  have other : ∀ e ∈ cuts.map (Event.data epoch), e.outcome? = none := by
    intro e he
    obtain ⟨chunk, _, rfl⟩ := List.mem_map.mp he
    rfl
  rw [run_eq_after other]
  split
  · next current =>
    have held := h.held_of_opened (current ▸ opened)
    rw [← current, Link.run_cuts h.settled (h.settled.active_of_held held)
      (h.running_of_held held) (h.parser held)]
  · next stale => rw [Link.run_of_stale stale]

theorem Reached.run_recut (h : s.Reached) {epoch : Nat}
    (opened : ∃ o ∈ s.openings, o.epoch = epoch) (cuts cuts' : List Bytes)
    (same : cuts.flatten = cuts'.flatten) :
    s.run (cuts.map (.data epoch)) = s.run (cuts'.map (.data epoch)) := by
  rw [h.run_cuts opened, h.run_cuts opened, same]

end

/-- **It does not matter how a socket cuts its bytes.**  Whenever a socket is in use, its next bytes
may come in any chunks, and two ways of cutting them lead to the same link, with the same effects
in the same order. -/
theorem run_data_eq_of_flatten_eq (role : Role) (config : Config) (events : List Event)
    (plays : (start role config).Plays events) (o : Opening)
    (inUse : ((start role config).run events).inUse? = some o) (cuts cuts' : List Bytes)
    (same : cuts.flatten = cuts'.flatten) :
    let s := (start role config).run events
    s.Plays (cuts.map (.data o.epoch)) ∧ s.Plays (cuts'.map (.data o.epoch)) ∧
      s.run (cuts.map (.data o.epoch)) = s.run (cuts'.map (.data o.epoch)) := by
  intro s
  have reached : s.Reached := ⟨role, config, events, plays, rfl⟩
  have opened : ∃ o' ∈ s.openings, o'.epoch = o.epoch := ⟨o, mem_of_inUse inUse, rfl⟩
  exact ⟨plays_cuts opened cuts, plays_cuts opened cuts',
    reached.run_recut opened cuts cuts' same⟩

/-- bytes that complete the handshake, answer a command and then the wish to part, with another
reply and a malformed byte behind that -/
theorem run_data_eq_of_flatten_eq_on_parting :
    let config := { Config.default with password := some "secret" }
    let ping := Command.ofRequest 1 (Request.ofVerb "PING") .utf8
    let events := [.send ping, .disconnect 2, .attached 1 (.fresh 7) none]
    let cuts := [Utf8.encode "+OK\r", Utf8.encode "\n+PONG\r\n+O", [],
      Utf8.encode "K\r\n+MORE\r\n@"]
    let s := (start .command config).run events
    (start .command config).Plays events ∧ s.inUse? = some ⟨1, 7, none⟩ ∧
      s.run (cuts.map (.data 1)) = s.run [.data 1 cuts.flatten] ∧
      (s.run (cuts.map (.data 1))).link.phase = .disconnected ∧
      (s.run (cuts.map (.data 1))).past.filterMap Effect.ended? = [1, 2] := by
  intro config ping events cuts s
  have plays : (start .command config).Plays events := by decide +kernel
  have inUse : s.inUse? = some ⟨1, 7, none⟩ := by decide +kernel
  have agree := run_data_eq_of_flatten_eq .command config events plays ⟨1, 7, none⟩ inUse cuts
    [cuts.flatten] List.flatten_singleton.symm
  exact ⟨plays, inUse, agree.2.2, by decide +kernel, by decide +kernel⟩

end Scene

/-! ## neighbouring chunks -/

/-- an event before others; two chunks of one socket become one -/
def Event.join : Event → List Event → List Event
  | .data n a, .data m b :: rest =>
    if n = m then .data n (a ++ b) :: rest else .data n a :: .data m b :: rest
  | e, rest => e :: rest

/-- the events with all neighbouring chunks of a socket joined -/
def joined (events : List Event) : List Event := events.foldr Event.join []

theorem Event.join_cases (e : Event) (rest : List Event) :
    e.join rest = e :: rest ∨ ∃ n a b later, e = .data n a ∧ rest = .data n b :: later ∧
      e.join rest = .data n (a ++ b) :: later := by
  unfold Event.join
  split
  · next n a m b later =>
    by_cases same : n = m
    · subst same
      exact .inr ⟨n, a, b, later, rfl, rfl, if_pos rfl⟩
    · exact .inl (if_neg same)
  · exact .inl rfl

namespace Scene
section
variable {s : Scene}

/-- two chunks of a socket lead to the same as one -/
theorem Reached.next_data (h : s.Reached) {epoch : Nat}
    (opened : ∃ o ∈ s.openings, o.epoch = epoch) (a b : Bytes) :
    (s.next (.data epoch a)).next (.data epoch b) = s.next (.data epoch (a ++ b)) :=
  h.run_recut opened [a, b] [a ++ b] (by simp)

/-- **Joining chunks changes nothing in any play.** -/
theorem Reached.joined (h : s.Reached) (events : List Event) :
    (s.Plays (joined events) ↔ s.Plays events) ∧
      (s.Plays events → s.run (RespLink.joined events) = s.run events) := by
  induction events generalizing s with
  | nil => exact ⟨.rfl, fun _ => rfl⟩
  | cons e rest ih =>
    rcases e.join_cases (RespLink.joined rest) with alone | ⟨n, a, b, later, rfl, front, merged⟩
    · rw [show RespLink.joined (e :: rest) = e :: RespLink.joined rest from alone]
      exact ⟨and_congr_right fun admits => (ih (h.next admits)).1,
        fun plays => (ih (h.next plays.1)).2 plays.2⟩
    · rw [show RespLink.joined (.data n a :: rest) = .data n (a ++ b) :: later from merged]
      -- a chunk can come as soon as the socket has come into use
      have both (opened : s.Admits (.data n a)) := ih (h.next opened)
      rw [front] at both
      have one (opened : s.Admits (.data n a)) :
          (s.next (.data n a)).next (.data n b) = s.next (.data n (a ++ b)) :=
        h.next_data opened a b
      refine ⟨⟨fun plays => ⟨plays.1, (both plays.1).1.mp ⟨opened_next plays.1 _, ?_⟩⟩,
        fun plays => ⟨plays.1, ?_⟩⟩, fun plays => ?_⟩
      · rw [one plays.1]
        exact plays.2
      · rw [← one plays.1]
        exact ((both plays.1).1.mpr plays.2).2
      · have same := (both plays.1).2 plays.2
        rw [← show ((s.next (.data n a)).next (.data n b)).run later
          = s.run (.data n (a ++ b) :: later) from congrArg (Scene.run · later) (one plays.1)]
        exact same

/-- the same events, with chunks cut otherwise -/
theorem Reached.recut (h : s.Reached) {events events' : List Event}
    (same : RespLink.joined events = RespLink.joined events') (plays : s.Plays events) :
    s.Plays events' ∧ s.run events = s.run events' := by
  have plays' : s.Plays events' := by
    rw [← (h.joined events').1, ← same, (h.joined events).1]
    exact plays
  refine ⟨plays', ?_⟩
  rw [← (h.joined events).2 plays, ← (h.joined events').2 plays', same]

end
end Scene
end RespLink
