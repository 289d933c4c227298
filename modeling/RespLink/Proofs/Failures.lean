import RespLink.Proofs.Progress
import RespLink.Proofs.Scene
import RespLink.Proofs.WireOrder
import RespLink.Link.Attempt

/-!
# Failures

Whatever makes a connection fail, and however far the turn has come by then, all that the link holds
fails with the cause and nothing of the connection is left.

* `Sound.tells`      an event in a play on an active link;
* `Rouses`           an event in a play on a link at rest;
* `Attempt.Seeks`    only an attempt through the Sentinels ends with a retry in mind;
* `Fails`            the events that are a failure, each with its cause; a frame may fail where a
                     command is sent, on a new socket and behind the answer to a step;
* `flushing_of_fault`   a flush that is cut short keeps all its commands on hand, in order;
* `Drains`           a turn that fails: what the link holds at that moment ends, in order;
* `failures_drain`   all of this for every play.
-/

namespace RespLink

/-- what is read from a socket, or comes of an attempt, or of writing: nothing that a handle asks -/
def Event.isReport : Event → Bool
  | connectFailed .. | data .. | closed _ | readFailed .. | writesFail .. | flushesFail .. => true
  | _ => false

/-! ## events in a play -/

namespace Scene

/-- what an event can do to a link at rest -/
inductive Rouses (l : Link) (e : Event) : Turn → Prop
  | stays {es} (quiet : ∀ x ∈ es, x.isAsking = false) : Rouses l e ⟨l, es⟩
  /-- a connect attempt starts -/
  | calls (pending registry) (cause : e = .retry ∨ ∃ c, e = .send c) : Rouses l e
    ⟨{ l with
        pending := pending, registry := registry, phase := .connecting, epoch := l.epoch + 1,
        attempts := l.attempts + 1, parser := .empty },
      [.dial (l.epoch + 1) (if l.config.sentinelMode then some l.sentinels else none)]⟩
  | stops (asked : e = .shutdown) : Rouses l e l.shutdown

section
variable {s : Scene} {e : Event}

theorem Sound.rests (sound : s.Sound) (phase : s.link.phase = .disconnected) : s.link.AtRest := by
  obtain ⟨pending, waiting, socket, _⟩ := sound.settled.disconnected phase
  exact ⟨phase, pending, waiting, (sound.kept.clean phase).2, socket⟩

theorem Sound.phase_of_not_active (sound : s.Sound) (idle : s.link.phase.isActive = false) :
    s.link.phase = .disconnected := by
  rcases sound.settled.phase_cases with phase | phase | phase
  · exact phase
  · rw [phase] at idle; cases idle
  · rw [phase] at idle; cases idle

/-- an event on an active link, told up to the end of the connection -/
theorem Sound.tells (sound : s.Sound) (running : s.link.stopped = false)
    (active : s.link.phase.isActive = true) (admits : s.Admits e) :
    s.link.Tells (s.link.progress e) (s.link.step e) := by
  rw [Link.step_of_running running]
  refine Link.tells_step sound.settled active e fun err retry is => ?_
  subst is
  exact (sound.kept.current_of_call admits).2.1

/-- where a connection ends the link comes to rest -/
theorem Sound.rests_of_ended (sound : s.Sound) (running : s.link.stopped = false)
    (active : s.link.phase.isActive = true) (admits : s.Admits e) {before : Turn} {d : End}
    (told : s.link.progress e = .upTo before d) : (s.link.step e).link.AtRest := by
  have tells := sound.tells running active admits
  have lasts := tells.lasts
  rw [told] at lasts
  rw [← tells.whole, told]
  exact (Link.letGo_rests (lasts.active active) d).1

/-- a link at rest overlooks all reports -/
theorem Sound.step_of_rest (sound : s.Sound) (running : s.link.stopped = false)
    (idle : s.link.phase.isActive = false) (admits : s.Admits e) (report : e.isReport = true) :
    s.link.step e = .of s.link := by
  have rests := sound.rests (sound.phase_of_not_active idle)
  have free : s.link.held? = none := (sound.kept.clean rests.phase).1
  -- every socket so far is of an earlier epoch
  have stale {epoch : Nat} (h : ∃ o ∈ s.openings, o.epoch = epoch) : s.link.epoch ≠ epoch := by
    obtain ⟨o, ho, rfl⟩ := h
    have holds := sound.kept.holds
    rw [free] at holds
    exact Nat.ne_of_gt (holds o ho)
  have spoilt (f : Socket → Socket) : { s.link with socket? := s.link.socket?.map f } = s.link := by
    have none : s.link.socket?.map f = s.link.socket? := by rw [rests.socket]; rfl
    rw [none]
  rw [Link.step_of_running running]
  cases e with
  | connectFailed epoch err retry =>
    have under := (sound.kept.current_of_call admits).2.1
    rw [rests.phase] at under
    cases under
  | data epoch chunk => exact if_neg (stale admits)
  | closed epoch => exact if_neg (stale admits)
  | readFailed epoch cause => exact if_neg (stale admits)
  | writesFail frames cause => exact congrArg Turn.of (spoilt _)
  | flushesFail frames cause => exact congrArg Turn.of (spoilt _)
  | _ => cases report

/-- a command sent to a link at rest is turned away, or it starts a connect attempt -/
theorem send_of_rest {l : Link} (phase : l.phase = .disconnected) (c : Command) :
    (∃ err, l.send c = ⟨l, [.failed c.ticket err]⟩) ∨
      ∃ c' registry, l.send c =
        Link.connect { l with pending := l.pending ++ [c'], registry := registry } := by
  unfold Link.send
  split
  · exact .inr ⟨c, l.registry, Link.queue_of_disconnected phase c⟩
  · exact .inl ⟨_, rfl⟩
  · next change _ _ =>
    exact .inr ⟨_, _, Link.queue_of_disconnected
      (l := { l with registry := (l.registry.apply change).1 }) phase _⟩

theorem Sound.rouses (sound : s.Sound) (running : s.link.stopped = false)
    (idle : s.link.phase.isActive = false) (admits : s.Admits e) :
    Rouses s.link e (s.link.step e) := by
  have phase := sound.phase_of_not_active idle
  have one {x : Effect} (quiet : x.isAsking = false) : Rouses s.link e ⟨s.link, [x]⟩ :=
    .stays (quiet_one quiet)
  have calls (pending : List Command) (registry : Registry)
      (cause : e = .retry ∨ ∃ c, e = .send c) : Rouses s.link e
        (Link.connect { s.link with pending := pending, registry := registry }) := by
    rw [Link.connect, if_pos phase]
    exact .calls pending registry cause
  cases report : e.isReport with
  | true =>
    rw [sound.step_of_rest running idle admits report]
    exact .stays (List.forall_mem_nil _)
  | false =>
    rw [Link.step_of_running running]
    cases e with
    | send c =>
      rcases send_of_rest phase c with ⟨err, turn⟩ | ⟨c', registry, turn⟩
      · rw [Link.runningStep, turn]
        exact one rfl
      · rw [Link.runningStep, turn]
        exact calls _ _ (.inr ⟨c, rfl⟩)
    | disconnect t =>
      rw [Link.runningStep, Link.disconnect, if_neg (by rw [idle]; decide)]
      exact one rfl
    | attached epoch socket sentinel? =>
      have under := (sound.kept.current_of_call admits).2.1
      rw [phase] at under
      cases under
    | retry => exact calls s.link.pending s.link.registry (.inl rfl)
    | shutdown => exact .stops rfl
    | _ => cases report

/-- a link that stops is at rest -/
theorem Sound.phase_of_stopped (sound : s.Sound) (running : s.link.stopped = false)
    (admits : s.Admits e) (stopped : (s.link.step e).link.stopped = true) :
    (s.link.step e).link.phase = .disconnected := by
  cases active : s.link.phase.isActive with
  | true =>
    cases told : s.link.progress e with
    | through t =>
      have tells := sound.tells running active admits
      have lasts := tells.lasts
      rw [← tells.whole, told] at stopped
      rw [told] at lasts
      exact absurd (lasts.stopped.symm.trans stopped) (by rw [running]; decide)
    | upTo t d => exact (sound.rests_of_ended running active admits told).phase
  | false =>
    have rouses := sound.rouses running active admits
    generalize s.link.step e = t at rouses stopped
    cases rouses with
    | stays => exact sound.phase_of_not_active active
    | calls => exact absurd (running.symm.trans stopped) (by decide)
    | stops => rfl

theorem phase_of_stopped {events : List Event} (sound : s.link.stopped = false → s.Sound)
    (rests : s.link.stopped = true → s.link.phase = .disconnected) (plays : s.Plays events)
    (stopped : (s.run events).link.stopped = true) :
    (s.run events).link.phase = .disconnected := by
  induction events generalizing s with
  | nil => exact rests stopped
  | cons e rest ih =>
    refine ih (fun running => ?_) (fun halted => ?_) plays.2 stopped
    · obtain ⟨before, lasting⟩ := @running_of_next s e [] running
      exact (sound before).next before plays.1 lasting
    · cases before : s.link.stopped with
      | true =>
        have still : (s.next e).link = s.link := Link.run_of_stopped before [e]
        rw [still]
        exact rests before
      | false => exact (sound before).phase_of_stopped before plays.1 halted

/-- a link that is active in a play has run all the time -/
theorem sound_of_active (role : Role) (config : Config) {events : List Event}
    (plays : (start role config).Plays events)
    (active : ((start role config).run events).link.phase.isActive = true) :
    ((start role config).run events).link.stopped = false ∧
      ((start role config).run events).Sound := by
  have running : ((start role config).run events).link.stopped = false := by
    by_contra h
    have stopped := (Bool.not_eq_false _).mp h
    rw [phase_of_stopped (fun _ => sound_start role config) (fun _ => rfl) plays stopped] at active
    cases active
  exact ⟨running, (sound_start role config).run plays running⟩

end
end Scene

/-! ## attempts -/

namespace Attempt

/-- the attempt goes, or went, through Sentinels; or it does not -/
def Seeks (sentinels : Bool) : Attempt → Prop
  | straight _ => sentinels = false
  | through _ => sentinels = true
  | ended (.attached _ index?) => index?.isSome = sentinels
  | ended (.failed _ retry) => retry = sentinels

/-- the attempt after these signals -/
def after (config : Config) (sentinels? : Option Sentinels) (signals : List Signal) : Attempt :=
  signals.foldl (fun a signal => (a.step config signal).1) (start config sentinels?).1

theorem seeks_ofWalk (walk : Walk) : (ofWalk walk).Seeks true := by
  cases walk <;> rfl

theorem Seeks.step {sentinels : Bool} {a : Attempt} (h : a.Seeks sentinels) (config : Config)
    (signal : Signal) : (a.step config signal).1.Seeks sentinels := by
  cases a with
  | straight server => cases signal <;> first | exact h | exact Eq.symm h
  | through walk =>
    have h : sentinels = true := h
    subst h
    exact seeks_ofWalk (walk.step config signal).1
  | ended outcome => exact h

theorem seeks_after (config : Config) (sentinels? : Option Sentinels) (signals : List Signal) :
    (after config sentinels? signals).Seeks sentinels?.isSome := by
  have start : (start config sentinels?).1.Seeks sentinels?.isSome := by
    cases sentinels? with
    | none => rfl
    | some sentinels => exact seeks_ofWalk (Walk.start config sentinels).1
  rw [after]
  generalize (Attempt.start config sentinels?).1 = a at start ⊢
  induction signals generalizing a with
  | nil => exact start
  | cons signal rest ih => exact ih _ (start.step config signal)

end Attempt

/-! ## failures -/

/-- the first fault among the next so many frames -/
def Socket.faultWithin : Nat → Socket → Option IoError
  | 0, _ => none
  | n + 1, s => s.write.fault?.or (s.write.socket.faultWithin n)

namespace Link

/-- how many frames are written before the next reply is awaited, with these steps still to come -/
def due (l : Link) : List (Handshake × Bytes) → Nat
  | [] => l.pending.length
  | _ :: _ => 1

/-- the event is a failure of an active link -/
inductive Fails (l : Link) : Event → Cause → Prop
  | unreachable (err retry) :
    Fails l (.connectFailed l.epoch err retry) (.unreachable err retry)
  | closed : Fails l (.closed l.epoch) .closed
  | unread (cause) : Fails l (.readFailed l.epoch cause) (.unread cause)
  | send_unwritten {c s cause} (phase : l.phase = .connected)
    (taken : c.change? = none ∨ l.role = .pubsub) (held : l.socket? = some s)
    (fault : s.write.fault? = some cause) : Fails l (.send c) (.unwritten cause)
  | quit_unwritten {t s cause} (phase : l.phase = .connected) (held : l.socket? = some s)
    (fault : s.write.fault? = some cause) : Fails l (.disconnect t) (.unwritten cause)
  /-- one of the frames that a new socket is given at once: the first step of the handshake, or
  without one any of the pending commands -/
  | attached_unwritten {socket sentinel? cause} (phase : l.phase = .connecting)
    (fault : socket.faultWithin (l.due (l.config.greeting sentinel?)) = some cause) :
    Fails l (.attached l.epoch socket sentinel?) (.unwritten cause)
  /-- one of the frames that the good answer to a step gives way to -/
  | answered_unwritten {chunk h reply rest s cause} (front : l.waiting = [.handshake h])
    (next : (l.parser.feed chunk).replies = reply :: rest) (plain : l.push? reply = none)
    (passes : h.refusal? reply = none) (held : l.socket? = some s)
    (fault : s.faultWithin (l.due (l.config.stepsAfter h)) = some cause) :
    Fails l (.data l.epoch chunk) (.unwritten cause)
  /-- the next reply turns down a step of the handshake -/
  | refused {chunk h reply rest why} (front : l.waiting = [.handshake h])
    (next : (l.parser.feed chunk).replies = reply :: rest) (plain : l.push? reply = none)
    (refusal : h.refusal? reply = some why) : Fails l (.data l.epoch chunk) why
  /-- the connection outlives the replies, and then there are bytes that are no reply -/
  | malformed {chunk why t}
    (heard : hearing (l.parser.feed chunk).replies
      { l with parser := (l.parser.feed chunk).parser } = .through t)
    (fault : (l.parser.feed chunk).fault = some why) :
    Fails l (.data l.epoch chunk) (.malformed why)

section
variable {l : Link} {s : Socket} {cause : IoError}

/-- what cannot be written waits already when the connection fails -/
theorem writing_of_fault (held : l.socket? = some s) (fault : s.write.fault? = some cause)
    (w : Waiter) (frame : Bytes) :
    ∃ before, l.writing w frame = .upTo before (.lost (.unwritten cause)) ∧
      before.link.waiting = l.waiting ++ [w] ∧ before.link.pending = l.pending := by
  unfold writing
  simp only [held, fault]
  exact ⟨_, rfl, rfl, rfl⟩

theorem writing_of_sound (held : l.socket? = some s) (sound : s.write.fault? = none) (w : Waiter)
    (frame : Bytes) :
    ∃ t, l.writing w frame = .through t ∧ t.link = l.awaiting w s := by
  unfold writing
  simp only [held, sound]
  exact ⟨_, rfl, rfl⟩

/-- wherever a flush is cut short, each of its commands waits or is still pending, in order -/
theorem flushing_of_fault {cs : List Command} (held : l.socket? = some s)
    (fault : s.faultWithin cs.length = some cause) :
    ∃ before, flushing cs l = .upTo before (.lost (.unwritten cause)) ∧
      before.link.commands = l.waitingCommands ++ cs := by
  -- on the commands; the socket goes along, and so do the waiters
  induction cs generalizing l s with
  | nil => cases fault
  | cons c rest ih =>
    rw [List.length_cons, Socket.faultWithin] at fault
    rw [flushing]
    cases first : s.write.fault? with
    | some cause' =>
      rw [first] at fault
      cases fault
      obtain ⟨before, written, waiting, pending⟩ :=
        writing_of_fault (l := { l with pending := rest }) held first (.command c) c.frame
      refine ⟨before, by rw [written, Progress.upTo_andThen], ?_⟩
      rw [commands, waitingCommands, waiting, pending, List.filterMap_append, List.append_assoc]
      rfl
    | none =>
      rw [first] at fault
      obtain ⟨t, written, link⟩ :=
        writing_of_sound (l := { l with pending := rest }) held first (.command c) c.frame
      obtain ⟨before, cut, on⟩ := ih (l := t.link) (s := s.write.socket) (by rw [link]; rfl) fault
      rw [written]
      refine ⟨_, Progress.through_andThen_of_upTo cut, on.trans ?_⟩
      rw [link, waitingCommands, awaiting, List.filterMap_append, List.append_assoc]
      rfl

theorem proceeding_of_fault {steps : List (Handshake × Bytes)} (held : l.socket? = some s)
    (fault : s.faultWithin (l.due steps) = some cause) :
    ∃ before, l.proceeding steps = .upTo before (.lost (.unwritten cause)) ∧
      before.link.commands = l.commands := by
  cases steps with
  | nil => exact flushing_of_fault (l := { l with phase := .connected }) held fault
  | cons step steps =>
    have first : s.write.fault? = some cause := by
      cases first : s.write.fault? with
      | some cause' =>
        rw [due, Socket.faultWithin, first] at fault
        exact fault
      | none =>
        rw [due, Socket.faultWithin, first] at fault
        cases fault
    obtain ⟨before, written, waiting, pending⟩ :=
      writing_of_fault held first (.handshake step.1) step.2
    refine ⟨before, written, ?_⟩
    rw [commands, waitingCommands, waiting, pending, List.filterMap_append]
    exact congrArg (· ++ l.pending) (List.append_nil _)

theorem sending_of_fault (phase : l.phase = .connected) (held : l.socket? = some s)
    (fault : s.write.fault? = some cause) {c : Command}
    (taken : c.change? = none ∨ l.role = .pubsub) :
    ∃ before, l.sending c = .upTo before (.lost (.unwritten cause)) ∧
      ∃ c' ∈ before.link.waitingCommands, c.Enters c' := by
  have queued (c' : Command) (enters : c.Enters c') (registry : Registry) : ∃ before,
      queueing c' { l with registry := registry } = .upTo before (.lost (.unwritten cause)) ∧
        ∃ c' ∈ before.link.waitingCommands, c.Enters c' := by
    obtain ⟨before, written, waiting, _⟩ :=
      writing_of_fault (l := { l with registry := registry }) held fault (.command c') c'.frame
    refine ⟨before, (if_pos phase).trans written, c', ?_, enters⟩
    rw [waitingCommands, waiting, List.filterMap_append]
    exact List.mem_append_right _ List.mem_cons_self
  unfold sending
  split
  · exact queued c (.inl rfl) l.registry
  · next change role =>
    rcases taken with plain | pubsub
    · rw [change] at plain; cases plain
    · rw [role] at pubsub; cases pubsub
  · next change _ _ => exact queued _ (.inr ⟨_, rfl⟩) _

/-- where the next reply ends the connection nothing more of the chunk counts -/
theorem receiving_of_replying {chunk : Bytes} {reply : Reply} {rest : List Reply} {t : Turn}
    {d : End} (next : (l.parser.feed chunk).replies = reply :: rest)
    (ends : replying reply { l with parser := (l.parser.feed chunk).parser } = .upTo t d) :
    l.receiving chunk = .upTo t d := by
  rw [receiving, next, hearing, ends, Progress.upTo_andThen, Progress.upTo_andThen]

/-- the next reply answers the only step, well -/
theorem receiving_of_fault {chunk : Bytes} {h : Handshake} {reply : Reply} {rest : List Reply}
    (front : l.waiting = [.handshake h]) (next : (l.parser.feed chunk).replies = reply :: rest)
    (plain : l.push? reply = none) (passes : h.refusal? reply = none) (held : l.socket? = some s)
    (fault : s.faultWithin (l.due (l.config.stepsAfter h)) = some cause) :
    ∃ before, l.receiving chunk = .upTo before (.lost (.unwritten cause)) ∧
      before.link.commands = l.pending := by
  let m : Link := { l with parser := (l.parser.feed chunk).parser }
  obtain ⟨before, cut, on⟩ := proceeding_of_fault
    (l := { m with waiting := [], sentinels := h.promote l.sentinels }) held fault
  have answered : accepting reply m = .upTo before (.lost (.unwritten cause)) := by
    simp only [accepting, show m.waiting = _ from front, passes]
    exact cut
  refine ⟨⟨before.link, .met m.waiting.head? reply :: before.effects⟩,
    receiving_of_replying next ?_, on⟩
  show replying reply m = _
  unfold replying
  rw [show m.push? reply = none from plain]
  exact Progress.through_andThen_of_upTo (t := ⟨m, [.met m.waiting.head? reply]⟩) answered

end

/-- a failure is where the connection ends; a command that cannot be written is on hand then, and
so is each that a link took in before it was connected -/
theorem progress_of_fails {l : Link} {e : Event} {why : Cause} (h : l.Fails e why) :
    ∃ before, l.progress e = .upTo before (.lost why) ∧
      (∀ c, e.command? l.config.encoding = some c → ∃ c' ∈ before.link.waitingCommands,
        c.Enters c') ∧
      ∀ cause, why = .unwritten cause → l.phase = .connecting →
        before.link.commands = l.pending := by
  cases h with
  | unreachable err retry =>
    exact ⟨.of l, if_pos rfl, (fun _ is => by cases is), (fun _ is => by cases is)⟩
  | closed =>
    exact ⟨.of l, progress_closed rfl, (fun _ is => by cases is), (fun _ is => by cases is)⟩
  | unread cause =>
    exact ⟨.of l, if_pos rfl, (fun _ is => by cases is), (fun _ is => by cases is)⟩
  | send_unwritten phase taken held fault =>
    obtain ⟨before, told, waits⟩ := sending_of_fault phase held fault taken
    refine ⟨before, told, fun c is => ?_, fun _ _ other => ?_⟩
    · cases is
      exact waits
    · rw [phase] at other
      cases other
  | @quit_unwritten t _ _ phase held fault =>
    obtain ⟨before, told, waits⟩ := sending_of_fault phase held fault
      (c := Command.ofRequest t quit l.config.encoding) (.inl rfl)
    refine ⟨before, told, fun c is => ?_, fun _ _ other => ?_⟩
    · cases is
      exact waits
    · rw [phase] at other
      cases other
  | @attached_unwritten socket sentinel? cause phase fault =>
    obtain ⟨before, cut, on⟩ := proceeding_of_fault (l := l.holding socket) rfl fault
    have told := Progress.through_andThen_of_upTo (t := ⟨l.holding socket,
      .attached l.epoch socket.number sentinel? ::
        failures (.connection "Connection lost") l.waitingCommands⟩) cut
    exact ⟨_, (if_pos ⟨rfl, phase⟩).trans told, (fun _ is => by cases is), fun _ _ _ => on⟩
  | answered_unwritten front next plain passes held fault =>
    obtain ⟨before, told, on⟩ := receiving_of_fault front next plain passes held fault
    exact ⟨before, (if_pos rfl).trans told, (fun _ is => by cases is), fun _ _ _ => on⟩
  | @refused chunk h reply rest why front next plain refusal =>
    have answered : replying reply { l with parser := (l.parser.feed chunk).parser } =
        .upTo ⟨{ l with parser := (l.parser.feed chunk).parser, waiting := [] },
          [.met (some (.handshake h)) reply]⟩ (.lost why) := by
      unfold replying
      rw [show push? reply { l with parser := (l.parser.feed chunk).parser } = none from plain]
      simp only [Progress.andThen, accepting, front, refusal]
      rfl
    refine ⟨_, (if_pos rfl).trans (receiving_of_replying next answered),
      (fun _ is => by cases is), fun cause is => ?_⟩
    subst is
    cases h with
    | role i =>
      rw [Handshake.refusal?] at refusal
      split at refusal <;> cases refusal
    | auth | select => cases reply <;> cases refusal
  | malformed heard fault =>
    rw [progress, if_pos rfl, receiving, heard, fault]
    exact ⟨_, rfl, (fun _ is => by cases is), (fun _ is => by cases is)⟩

/-- letting go asks for nothing but a retry -/
theorem asking_of_letGo {l : Link} {d : End} {x : Effect} (active : l.phase.isActive = true)
    (hx : x ∈ (l.letGo d).effects) (asks : x.isAsking = true) :
    ∃ why, d = .lost why ∧ why.retries = true ∧ x = .retryAfter l.config.retryInterval := by
  rw [letGo_effects active] at hx
  rcases List.mem_append.mp hx with early | late
  · rcases List.mem_append.mp early with failed | released
    · obtain ⟨c, _, rfl⟩ := List.mem_map.mp failed
      cases asks
    · obtain ⟨s, _, rfl⟩ := List.mem_map.mp released
      cases asks
  · cases d with
    | lost why =>
      rw [End.closing] at late
      split at late
      · next retries => exact ⟨why, rfl, retries, List.mem_singleton.mp late⟩
      · cases late
    | parted c =>
      rw [List.mem_singleton.mp late] at asks
      cases asks
    | dropped => cases late

/-- a turn that fails after `before`, on a link that took in these commands -/
structure Drains (l : Link) (taken : List Command) (before : Turn) (why : Cause) (t : Turn) :
    Prop where
  /-- the commands on hand fail with the cause, those that were written first -/
  effects : t.effects = before.effects
    ++ failures why.error (before.link.waitingCommands ++ before.link.pending)
    ++ (before.link.socket?.toList.map fun s => .released s.number)
    ++ if why.retries then [.retryAfter l.config.retryInterval] else []
  /-- nothing is left of the connection; Sentinels and attempts are as they were -/
  link : t.link =
    { before.link with
      phase := .disconnected, epoch := l.epoch + 1, pending := [], waiting := [],
      parser := .empty, socket? := none, registry := .empty }
  /-- a command that the link held or took in was done with before, or was on hand; once -/
  each : (before.effects.filterMap Effect.ended? ++ before.link.commands.map Command.ticket).Perm
    (l.commands.map Command.ticket ++ taken.map Command.ticket)

end Link

namespace Scene

section
variable {s : Scene} {e : Event} {before : Turn} {why : Cause}

theorem Sound.drains (sound : s.Sound) (running : s.link.stopped = false)
    (active : s.link.phase.isActive = true) (admits : s.Admits e)
    (told : s.link.progress e = .upTo before (.lost why)) :
    s.link.Drains (e.command? s.link.config.encoding).toList before why (s.link.step e) := by
  have tells := sound.tells running active admits
  have lasts := tells.lasts
  have whole := tells.whole
  rw [told, Progress.turn_upTo] at lasts
  rw [told] at whole
  have still := lasts.active active
  have effects : (s.link.step e).effects = before.effects
      ++ Link.failures why.error (before.link.waitingCommands ++ before.link.pending)
      ++ (before.link.socket?.toList.map fun s => .released s.number)
      ++ if why.retries then [.retryAfter s.link.config.retryInterval] else [] := by
    rw [← whole, ← lasts.config]
    show before.effects ++ (before.link.letGo (.lost why)).effects = _
    rw [Link.letGo_effects still, ← List.append_assoc, ← List.append_assoc]
    rfl
  have link : (s.link.step e).link =
      { before.link with
        phase := .disconnected, epoch := s.link.epoch + 1, pending := [], waiting := [],
        parser := .empty, socket? := none, registry := .empty } := by
    rw [← whole, ← lasts.epoch]
    exact Link.letGo_lost still why
  refine ⟨effects, link, ?_⟩
  obtain ⟨ins, brings, moves, _⟩ := Link.step_leads sound.settled e
  have each := moves.conserves.tickets
  rw [map_ticket_of_map_bare (Link.bare_of_enters brings.commands)] at each
  have ended : (s.link.step e).effects.filterMap Effect.ended? =
      before.effects.filterMap Effect.ended? ++ before.link.commands.map Command.ticket := by
    rw [effects, List.filterMap_append, List.filterMap_append, List.filterMap_append,
      Link.ended_failures, Link.ended_released, List.append_nil]
    cases why.retries <;> exact List.append_nil _
  have none : (s.link.step e).link.commands = [] := by
    rw [link]
    rfl
  rw [ended, none, List.map_nil, List.append_nil] at each
  exact each

/-- a retry is asked for by a failure with a retry in mind, and by nothing else -/
theorem Sound.retryAfter_iff (sound : s.Sound) (running : s.link.stopped = false)
    (active : s.link.phase.isActive = true) (admits : s.Admits e) (delay : Nat) :
    .retryAfter delay ∈ (s.link.step e).effects ↔ delay = s.link.config.retryInterval ∧
      ∃ before why, s.link.progress e = .upTo before (.lost why) ∧ why.retries = true := by
  have tells := sound.tells running active admits
  have quiet := tells.quiet
  constructor
  · intro asked
    rw [← tells.whole] at asked
    cases told : s.link.progress e with
    | through t =>
      rw [told] at asked quiet
      cases quiet _ asked
    | upTo t d =>
      have lasts := tells.lasts
      rw [told, Progress.turn_upTo] at lasts quiet
      rw [told] at asked
      rcases List.mem_append.mp asked with early | late
      · cases quiet _ early
      · obtain ⟨why, rfl, retries, is⟩ := Link.asking_of_letGo (lasts.active active) late rfl
        cases is
        exact ⟨congrArg _ lasts.config, t, why, rfl, retries⟩
  · rintro ⟨rfl, before, why, told, retries⟩
    rw [(sound.drains running active admits told).effects, if_pos retries]
    exact List.mem_append_right _ List.mem_cons_self

/-- an effect that is done with a ticket is the only one, if each ticket is done with once -/
theorem filter_ended {es : List Effect} {a : Effect} {t : Ticket}
    (once : (es.filterMap Effect.ended?).Nodup) (ha : a ∈ es) (done : a.ended? = some t) :
    es.filter (fun x => x.ended? = some t) = [a] := by
  induction es with
  | nil => cases ha
  | cons x es ih =>
    by_cases first : x.ended? = some t
    · have same : x = a := Link.eq_of_ended once List.mem_cons_self ha first done
      rw [List.filterMap_cons_some first] at once
      -- no other effect is done with the ticket
      have none : es.filter (fun x => x.ended? = some t) = [] := by
        refine List.filter_eq_nil_iff.mpr fun y hy again => ?_
        have twice := List.mem_filterMap.mpr ⟨y, hy, of_decide_eq_true again⟩
        exact (List.nodup_cons.mp once).1 twice
      rw [List.filter_cons, if_pos (decide_eq_true first), none, same]
    · have later : a ∈ es := by
        rcases List.mem_cons.mp ha with rfl | later
        · exact absurd done first
        · exact later
      rw [List.filter_cons, if_neg fun h => first (of_decide_eq_true h)]
      exact ih (once.sublist ((List.sublist_cons_self x es).filterMap _)) later

/-- the effects of an event are among those of the run -/
theorem mem_run {l : Link} {events later : List Event} {x : Effect}
    (h : x ∈ ((Link.run events l).link.step e).effects) :
    x ∈ (Link.run (events ++ e :: later) l).effects := by
  rw [Link.run_append]
  exact List.mem_append_right _ (List.mem_append_left _ h)

/-- what fails with the turn of an event is done with by that alone, in the whole run -/
theorem failed_once {role : Role} {config : Config} {events later : List Event} {e : Event}
    {t : Ticket} {err : Error}
    (failed : .failed t err ∈ (((start role config).run events).link.step e).effects)
    (distinct : (((events ++ e :: later).filterMap (Event.command? config.encoding)).map
      Command.ticket).Nodup) :
    ((Link.run (events ++ e :: later) (.start role config)).effects.filter
      fun x => x.ended? = some t) = [.failed t err] := by
  rw [(run_eq (start role config) events).1] at failed
  exact filter_ended (Link.ended_of_run role config _ distinct) (mem_run failed) rfl

theorem config_of_plays (role : Role) (config : Config) {events : List Event}
    (plays : (start role config).Plays events) :
    ((start role config).run events).link.config = config := by
  obtain ⟨ins, moves, _⟩ := moves_of_plays role config plays
  exact moves.same.2

end

/-- **A failure is a full drain, whatever the cause.**  In every play, on an active link: when an
event comes to a failure, all that the link holds at that moment fails with the cause, those that
were written first, each in order and never again; where a frame fails, the command that it is of is
among them, and on a link that was not connected so are all that it took in; nothing is left of the
connection; a retry is asked for if no Sentinel led to a master or the peer is none, and only then.
A link at rest overlooks reports of failures. -/
theorem failures_drain (role : Role) (config : Config) (events : List Event) (e : Event)
    (plays : (start role config).Plays events)
    (admits : ((start role config).run events).Admits e) :
    let s := (start role config).run events
    let t := s.link.step e
    (s.link.phase.isActive = true →
      t = (s.link.progress e).whole ∧
      (∀ u, s.link.progress e = .through u → t.link.phase.isActive = true) ∧
      (∀ why, s.link.Fails e why → ∃ before, s.link.progress e = .upTo before (.lost why) ∧
        (∀ c, e.command? config.encoding = some c → ∃ c' ∈ before.link.waitingCommands,
          c.Enters c') ∧
        ∀ cause, why = .unwritten cause → s.link.phase = .connecting →
          before.link.commands = s.link.pending) ∧
      (∀ before why, s.link.progress e = .upTo before (.lost why) →
        s.link.Drains (e.command? config.encoding).toList before why t ∧
        before.link.attempts = s.link.attempts ∧
        ∀ later, (((events ++ e :: later).filterMap (Event.command? config.encoding)).map
            Command.ticket).Nodup →
          ∀ c ∈ before.link.waitingCommands ++ before.link.pending,
            ((Link.run (events ++ e :: later) (.start role config)).effects.filter
              fun x => x.ended? = some c.ticket) = [.failed c.ticket why.error]) ∧
      (∀ delay, .retryAfter delay ∈ t.effects ↔ delay = config.retryInterval ∧
        ∃ before why, s.link.progress e = .upTo before (.lost why) ∧
          (why = .notMaster ∨ ∃ err, why = .unreachable err true))) ∧
    (s.link.phase.isActive = false → e.isReport = true → t = .of s.link) ∧
    ∀ signals err retry,
      Attempt.after config (if config.sentinelMode then some s.link.sentinels else none) signals
        = .ended (.failed err retry) → retry = config.sentinelMode := by
  intro s t
  have same : s.link.config = config := config_of_plays role config plays
  refine ⟨fun active => ?_, fun idle report => ?_, fun signals err retry ended => ?_⟩
  · obtain ⟨running, sound⟩ := sound_of_active role config plays active
    have tells := sound.tells running active admits
    refine ⟨tells.whole.symm, fun u told => ?_, fun why fails => ?_, fun before why told => ?_,
      fun delay => ?_⟩
    · have lasts := tells.lasts
      rw [told, Progress.turn_through] at lasts
      have whole : u = t := (congrArg Progress.whole told).symm.trans tells.whole
      rw [← whole]
      exact lasts.active active
    · rw [← same]
      exact Link.progress_of_fails fails
    · have drains := sound.drains running active admits told
      have lasts := tells.lasts
      rw [told, Progress.turn_upTo] at lasts
      rw [same] at drains
      refine ⟨drains, lasts.attempts, fun later distinct c hc => ?_⟩
      have failed : .failed c.ticket why.error ∈ t.effects := by
        rw [drains.effects]
        refine List.mem_append_left _ (List.mem_append_left _ (List.mem_append_right _ ?_))
        exact List.mem_map_of_mem hc
      exact failed_once failed distinct
    · rw [sound.retryAfter_iff running active admits, same]
      refine and_congr_right fun _ => exists_congr fun before => exists_congr fun why => ?_
      exact and_congr_right fun _ => why.retries_iff
  · cases running : s.link.stopped with
    | true =>
      show s.link.step e = _
      rw [Link.step_of_stopped running]
      cases e <;> first | rfl | cases report
    | false =>
      exact ((sound_start role config).run plays running).step_of_rest running idle admits report
  · have seeks := Attempt.seeks_after config
      (if config.sentinelMode then some s.link.sentinels else none) signals
    rw [ended] at seeks
    refine Eq.trans seeks ?_
    cases config.sentinelMode <;> rfl

/-- the peer closes the socket when one command has one reply of two and another has none -/
theorem failures_drain_on_close :
    let two := (Command.ofRequest 1 (Request.ofVerb "PING") .utf8).expecting 2
    let one := Command.ofRequest 2 (Request.ofVerb "PING") .utf8
    let events : List Event :=
      [.send two, .send one, .attached 1 (.fresh 7) none, .data 1 (Utf8.encode "+A\r\n")]
    let t := Link.run (events ++ [.closed 1]) (.start .command .default)
    (t.effects.filter fun x => x.ended? = some 1)
        = [.failed 1 (.connection "Connection closed by peer")] ∧
      (t.effects.filter fun x => x.ended? = some 2)
        = [.failed 2 (.connection "Connection closed by peer")] := by
  intro two one events t
  have plays : (start .command .default).Plays events :=
    ⟨(Command.fresh_ofRequest _ _ _).expecting 2, Command.fresh_ofRequest _ _ _,
      List.mem_singleton.mpr rfl, ⟨⟨1, 7, none⟩, by decide, rfl⟩, trivial⟩
  have admits : ((start .command .default).run events).Admits (.closed 1) :=
    ⟨⟨1, 7, none⟩, by decide, rfl⟩
  obtain ⟨_, _, _, drains, _⟩ :=
    (failures_drain .command .default events (.closed 1) plays admits).1 (by decide)
  have current : ((start .command .default).run events).link.epoch = 1 := by decide
  have held : ((start .command .default).run events).link.commands
      = [two.accept (.simple "A"), one] := by decide +kernel
  generalize ((start .command .default).run events).link = l at drains current held
  obtain ⟨_, _, once⟩ := drains (.of l) .closed (Link.progress_closed current)
  have distinct : (((events ++ [Event.closed 1]).filterMap
      (Event.command? Config.default.encoding)).map Command.ticket).Nodup := by decide
  refine ⟨once [] distinct (two.accept (.simple "A")) ?_, once [] distinct one ?_⟩
  · show _ ∈ l.commands
    rw [held]
    exact List.mem_cons_self
  · show _ ∈ l.commands
    rw [held]
    exact List.mem_cons_of_mem _ List.mem_cons_self

/-- the second of two pending commands cannot be written on a new socket -/
example :
    let ping t := Command.ofRequest t (Request.ofVerb "PING") .utf8
    let cause : IoError := ⟨"BrokenPipe", "broken pipe"⟩
    let events : List Event :=
      [.send (ping 1), .send (ping 2), .attached 1 ⟨7, some ⟨1, cause⟩, none⟩ none]
    (Link.run events (.start .command .default)).effects =
      [.dial 1 none, .attached 1 7 none, .wrote 7 (.command (ping 1)) (ping 1).frame,
        .failed 1 (.io cause), .failed 2 (.io cause), .released 7] := by
  rfl

end Scene
end RespLink
