import RespLink.Proofs.Sittings
import RespLink.Proofs.Conservation

/-!
# A link and its world

Connect attempts and sockets report to the link that asked for them, each with the epoch it was
started in.  A `Scene` is a link together with what may still be reported.

* `Scene.Admits`    the events that can happen: the outcome of an attempt that is under way, what
                    is read from a socket that came into use, and fresh commands;
* `Scene.Plays`     events that can happen one after another;
* `Coherent`        phase, queues, socket and attempts fit together;
* `Kept`            what is reported belongs to the link as it is, or to its past;
* `Sound`           a settled link with that; it carries `Coherent` from event to event;
* `coherent_of_plays`   it does so until the last handle goes.
-/

namespace RespLink

/-! ## fresh commands -/

namespace Command

theorem Enters.fresh {c c' : Command} (h : c.Enters c') (fresh : c.Fresh) : c'.Fresh := by
  rcases h with rfl | ⟨replies, rfl⟩
  · exact fresh
  · exact fresh.expecting replies

theorem fresh_of_entered {cs cs' : List Command} (h : List.Forall₂ Enters cs cs')
    (fresh : ∀ c ∈ cs, c.Fresh) : ∀ c ∈ cs', c.Fresh := by
  induction h with
  | nil =>
    intro c hc
    cases hc
  | cons enters _ ih =>
    intro c hc
    rcases List.mem_cons.mp hc with rfl | later
    · exact enters.fresh (fresh _ List.mem_cons_self)
    · exact ih (fun c hc => fresh c (List.mem_cons_of_mem _ hc)) c later

end Command

/-! ## scenes -/

/-- the epoch of the connect attempt that starts -/
def Effect.call? : Effect → Option Nat
  | dial epoch _ => some epoch
  | _ => none

/-- the epoch of the connect attempt that ends -/
def Event.outcome? : Event → Option Nat
  | attached epoch _ _ | connectFailed epoch _ _ => some epoch
  | _ => none

structure Scene where
  link : Link
  /-- the epochs of the attempts whose outcome the link has not met yet -/
  calls : List Nat
  /-- all effects so far, in order -/
  past : List Effect

namespace Scene

def start (role : Role) (config : Config) : Scene := ⟨.start role config, [], []⟩

/-- the sockets that came into use, in order -/
def openings (s : Scene) : List Opening := s.past.filterMap Effect.opening?

/-- events that can happen: each attempt has one outcome, and sockets are read once they are in use;
handles submit fresh commands -/
def Admits (s : Scene) : Event → Prop
  | .send c => c.Fresh
  | .attached epoch _ _ | .connectFailed epoch _ _ => epoch ∈ s.calls
  | .data epoch _ | .closed epoch | .readFailed epoch _ => ∃ o ∈ s.openings, o.epoch = epoch
  | _ => True

/-- one turn later -/
def after (s : Scene) (t : Turn) : Scene where
  link := t.link
  calls := s.calls ++ t.effects.filterMap Effect.call?
  past := s.past ++ t.effects

def next (s : Scene) (e : Event) : Scene :=
  { s with calls := e.outcome?.elim s.calls s.calls.erase }.after (s.link.step e)

def run (s : Scene) (events : List Event) : Scene := events.foldl next s

def Plays : Scene → List Event → Prop
  | _, [] => True
  | s, e :: rest => s.Admits e ∧ (s.next e).Plays rest

instance (s : Scene) (e : Event) : Decidable (s.Admits e) :=
  match e with
  | .send c => inferInstanceAs (Decidable c.Fresh)
  | .attached epoch _ _ | .connectFailed epoch _ _ => inferInstanceAs (Decidable (epoch ∈ s.calls))
  | .data epoch _ | .closed epoch | .readFailed epoch _ =>
    inferInstanceAs (Decidable (∃ o ∈ s.openings, o.epoch = epoch))
  | .disconnect _ | .retry | .writesFail .. | .flushesFail .. | .shutdown =>
    inferInstanceAs (Decidable True)

instance decidablePlays : (s : Scene) → (events : List Event) → Decidable (s.Plays events)
  | _, [] => inferInstanceAs (Decidable True)
  | s, e :: rest =>
    have := decidablePlays (s.next e) rest
    inferInstanceAs (Decidable (s.Admits e ∧ (s.next e).Plays rest))

theorem run_eq (s : Scene) (events : List Event) :
    (s.run events).link = (Link.run events s.link).link ∧
      (s.run events).past = s.past ++ (Link.run events s.link).effects := by
  induction events generalizing s with
  | nil => exact ⟨rfl, (List.append_nil _).symm⟩
  | cons e rest ih =>
    obtain ⟨link, past⟩ := ih (s.next e)
    refine ⟨link, past.trans ?_⟩
    rw [Link.run, Turn.andThen_effects, ← List.append_assoc]
    rfl

theorem run_append (s : Scene) (a b : List Event) : s.run (a ++ b) = (s.run a).run b :=
  List.foldl_append

theorem plays_append {s : Scene} {a b : List Event} :
    s.Plays (a ++ b) ↔ s.Plays a ∧ (s.run a).Plays b := by
  induction a generalizing s with
  | nil => exact (and_iff_right trivial).symm
  | cons e rest ih => exact (and_congr_right fun _ => ih).trans and_assoc.symm

/-- all commands that are submitted in a play are fresh -/
theorem fresh_of_plays {s : Scene} {events : List Event} (h : s.Plays events) (e : Encoding) :
    ∀ c ∈ events.filterMap (Event.command? e), c.Fresh := by
  induction events generalizing s with
  | nil =>
    intro c hc
    cases hc
  | cons event rest ih =>
    intro c hc
    rw [List.filterMap_cons] at hc
    cases submitted : event.command? e with
    | none =>
      rw [submitted] at hc
      exact ih h.2 c hc
    | some c' =>
      rw [submitted] at hc
      rcases List.mem_cons.mp hc with rfl | later
      · cases event <;> cases submitted
        · exact h.1
        · exact Command.fresh_ofRequest _ _ _
      · exact ih h.2 c later

end Scene

/-! ## what fits together -/

/-- phase, queues, socket and attempts of a link that runs, between two events -/
structure Coherent (s : Scene) : Prop where
  sound : s.link.phase ≠ .failed
  disconnected : s.link.phase = .disconnected → s.link.pending = [] ∧ s.link.waiting = [] ∧
    s.link.registry = .empty ∧ s.link.parser.buffer = [] ∧ s.link.socket? = none
  connecting : s.link.phase = .connecting → s.link.waitingCommands = [] ∧
    ((s.link.socket? = none ∧ s.link.waiting = [] ∧ s.calls = [s.link.epoch]) ∨
      (s.link.socket?.isSome = true ∧ (∃ h, s.link.waiting = [.handshake h]) ∧ s.calls = []))
  connected : s.link.phase = .connected → s.link.socket?.isSome = true ∧ s.link.pending = [] ∧
    (∀ w ∈ s.link.waiting, ∃ c, w = .command c ∧ 1 ≤ c.remaining ∧ c.remaining ≤ c.expected) ∧
    s.calls = []

namespace Scene

/-- the socket that is held is the last one that came into use, and its epoch is the link's own -/
def Holds (s : Scene) : Option Nat → Prop
  | none => ∀ o ∈ s.openings, o.epoch < s.link.epoch
  | some socket => ∃ before epoch sentinel?, s.openings = before ++ [⟨epoch, socket, sentinel?⟩] ∧
    epoch = s.link.epoch ∧ ∀ o ∈ before, o.epoch < s.link.epoch

/-- what is reported belongs to the link as it is, or to its past -/
structure Kept (s : Scene) : Prop where
  clean : s.link.phase = .disconnected → s.link.held? = none ∧ s.link.parser = .empty
  calls : s.calls =
    if s.link.phase = .connecting ∧ s.link.held? = none then [s.link.epoch] else []
  holds : s.Holds s.link.held?
  /-- every socket is released before the next one comes into use -/
  sockets : s.openings.map Opening.socket =
    s.past.filterMap Effect.released? ++ s.link.held?.toList

section
variable {s : Scene} {t : Turn} {e : Event}

theorem after_after (s : Scene) (t u : Turn) :
    (s.after t).after u = s.after ⟨u.link, t.effects ++ u.effects⟩ := by
  simp only [after, List.filterMap_append, List.append_assoc]

theorem calls_after_of_calm (calm : ∀ e ∈ t.effects, e.isCalm = true) :
    (s.after t).calls = s.calls := by
  have none : t.effects.filterMap Effect.call? = [] := by
    refine List.filterMap_eq_nil_iff.mpr fun e he => ?_
    have h := calm e he
    cases e <;> first | rfl | cases h
  rw [after, none, List.append_nil]

theorem openings_after (s : Scene) (t : Turn) :
    (s.after t).openings = s.openings ++ t.effects.filterMap Effect.opening? :=
  List.filterMap_append

theorem openings_after_of_calm (calm : ∀ e ∈ t.effects, e.isCalm = true) :
    (s.after t).openings = s.openings := by
  have none : t.effects.filterMap Effect.opening? = [] :=
    List.filterMap_eq_nil_iff.mpr fun e he => Effect.opening?_of_isCalm (calm e he)
  rw [openings_after, none, List.append_nil]

theorem Holds.epoch_le {held? : Option Nat} (h : s.Holds held?) :
    ∀ o ∈ s.openings, o.epoch ≤ s.link.epoch := by
  intro o ho
  cases held? with
  | none => exact Nat.le_of_lt (h o ho)
  | some socket =>
    obtain ⟨before, epoch, sentinel?, e, rfl, older⟩ := h
    rw [e] at ho
    rcases List.mem_append.mp ho with old | last
    · exact Nat.le_of_lt (older o old)
    · exact Nat.le_of_eq (congrArg Opening.epoch (List.mem_singleton.mp last))

/-- a link that holds a socket has no attempt under way -/
theorem Kept.calls_of_held (kept : s.Kept) (held : s.link.held?.isSome = true) : s.calls = [] := by
  rw [kept.calls, if_neg]
  intro h
  rw [h.2] at held
  cases held

theorem Kept.busy_of_held (kept : s.Kept) (held : s.link.held?.isSome = true) :
    s.link.phase ≠ .disconnected := by
  intro phase
  rw [(kept.clean phase).1] at held
  cases held

/-- the socket is still the same -/
theorem Kept.here (kept : s.Kept) (calm : ∀ e ∈ t.effects, e.isCalm = true)
    (released : t.effects.filterMap Effect.released? = []) (epoch : t.link.epoch = s.link.epoch)
    (held : t.link.held? = s.link.held?)
    (phase : t.link.phase = s.link.phase ∨
      s.link.held?.isSome = true ∧ t.link.phase = .connected)
    (parser : t.link.phase = .disconnected → t.link.parser = s.link.parser) :
    Kept (s.after t) where
  clean h := by
    have h : t.link.phase = .disconnected := h
    rcases phase with same | ⟨_, now⟩
    · obtain ⟨none, empty⟩ := kept.clean (same.symm.trans h)
      exact ⟨held.trans none, (parser h).trans empty⟩
    · rw [h] at now
      cases now
  calls := by
    show _ = if t.link.phase = .connecting ∧ t.link.held? = none then [t.link.epoch] else []
    rw [calls_after_of_calm calm, kept.calls, held, epoch]
    rcases phase with same | ⟨some, now⟩
    · rw [same]
    · have some' : s.link.held? ≠ none := fun none => by rw [none] at some; cases some
      rw [if_neg fun h => some' h.2, if_neg fun h => some' h.2]
  holds := by
    have holds := kept.holds
    show Holds _ t.link.held?
    rw [held]
    cases h : s.link.held? with
    | none =>
      rw [h] at holds
      rw [Holds, openings_after_of_calm calm]
      exact fun o ho => epoch.symm ▸ holds o ho
    | some socket =>
      rw [h] at holds
      obtain ⟨before, n, sentinel?, split, here, older⟩ := holds
      rw [Holds, openings_after_of_calm calm]
      exact ⟨before, n, sentinel?, split, here.trans epoch.symm,
        fun o ho => epoch.symm ▸ older o ho⟩
  sockets := by
    show _ = (s.past ++ t.effects).filterMap _ ++ t.link.held?.toList
    rw [openings_after_of_calm calm, List.filterMap_append, released, List.append_nil, held]
    exact kept.sockets

/-- the socket is lost, or the attempt failed -/
theorem Kept.gone (kept : s.Kept) (calm : ∀ e ∈ t.effects, e.isCalm = true)
    (released : t.effects.filterMap Effect.released? = s.link.held?.toList)
    (epoch : s.link.epoch < t.link.epoch) (held : t.link.held? = none)
    (phase : t.link.phase = .disconnected) (parser : t.link.parser = .empty) :
    Kept ({ s with calls := [] }.after t) where
  clean _ := ⟨held, parser⟩
  calls := by
    show _ = if t.link.phase = .connecting ∧ t.link.held? = none then [t.link.epoch] else []
    rw [calls_after_of_calm calm, phase, if_neg fun h => by cases h.1]
  holds := by
    show Holds _ t.link.held?
    rw [held, Holds, openings_after_of_calm calm]
    exact fun o ho => Nat.lt_of_le_of_lt (kept.holds.epoch_le o ho) epoch
  sockets := by
    show _ = (s.past ++ t.effects).filterMap _ ++ t.link.held?.toList
    rw [openings_after_of_calm calm, List.filterMap_append, released, held]
    exact kept.sockets.trans (List.append_nil _).symm

theorem Kept.stays (kept : s.Kept) (held : s.link.held?.isSome = true)
    (calm : ∀ e ∈ t.effects, e.isCalm = true) (stays : Link.Stays s.link t.effects t.link) :
    Kept (s.after t) := by
  cases stays with
  | here epoch same parser phase released =>
    refine kept.here calm released epoch same ?_ fun _ => parser
    rcases phase with phase | ⟨_, now⟩
    · exact .inl phase
    · exact .inr ⟨held, now⟩
  | gone epoch none parser phase released =>
    have gone := kept.gone calm released epoch none phase parser
    rw [← kept.calls_of_held held] at gone
    exact gone

/-! ## events on a link that holds a socket -/

/-- what comes in while a socket is held, bytes apart -/
theorem quiet_of_brings {l : Link} {ins : List Intake} (h : l.Brings e ins)
    (busy : l.phase ≠ .disconnected) (none : e.outcome? = none)
    (plain : ∀ epoch chunk, e ≠ .data epoch chunk) : ∀ i ∈ ins, i.isQuiet = true := by
  have quiet_of_submits {c : Command} (h : l.Submits c ins) : ∀ i ∈ ins, i.isQuiet = true := by
    obtain ⟨c', _, rfl | ⟨phase, _⟩⟩ := h
    · intro i hi
      rw [List.mem_singleton.mp hi]
      rfl
    · exact absurd phase busy
  cases e with
  | send c => exact quiet_of_submits h
  | disconnect t => exact quiet_of_submits h
  | attached => cases none
  | data epoch chunk => exact absurd rfl (plain epoch chunk)
  | retry =>
    rcases h with rfl | ⟨phase, _⟩
    · intro i hi
      cases hi
    · exact absurd phase busy
  | _ =>
    subst h
    intro i hi
    cases hi

/-- nothing happens -/
theorem Kept.of (kept : s.Kept) : Kept (s.after (.of s.link)) :=
  kept.here (by simp [Turn.of]) rfl rfl rfl (.inl rfl) fun _ => rfl

theorem Kept.next_of_held (kept : s.Kept) (settled : s.link.Settled)
    (running : s.link.stopped = false) (held : s.link.held?.isSome = true) (admits : s.Admits e) :
    Kept (s.next e) := by
  have none : e.outcome? = none := by
    cases h : e.outcome? with
    | none => rfl
    | some epoch =>
      have under : epoch ∈ s.calls := by
        cases e <;> cases h <;> exact admits
      rw [kept.calls_of_held held] at under
      cases under
  have busy := kept.busy_of_held held
  rw [next, none]
  show Kept (s.after _)
  by_cases bytes : ∃ epoch chunk, e = .data epoch chunk
  · obtain ⟨epoch, chunk, rfl⟩ := bytes
    rw [Link.step_of_running running, Link.runningStep]
    split
    · obtain ⟨heard, _, ⟨moves, _⟩, _⟩ := Link.receive_moves settled chunk
      have quiet := Intake.quiet_replies heard
      -- the bytes reach the parser first, then their replies reach the link
      have fed : Kept (s.after
          (.of { s.link with parser := (s.link.parser.feed chunk).parser })) :=
        kept.here (by simp [Turn.of]) rfl rfl rfl (.inl rfl) fun phase => absurd phase busy
      have all := fed.stays held (moves.calm quiet) (moves.stays quiet)
      rw [after_after] at all
      exact all
    · exact kept.of
  · obtain ⟨ins, brings, moves, _⟩ := Link.step_leads settled e
    have quiet := quiet_of_brings brings busy none fun epoch chunk h => bytes ⟨epoch, chunk, h⟩
    exact kept.stays held (moves.calm quiet) (moves.stays quiet)

/-! ## events on a link without a socket -/

/-- a connect attempt starts -/
theorem Kept.connect (kept : s.Kept) (l : Link) (phase : l.phase = .disconnected)
    (same : l.phase = s.link.phase) (epoch : l.epoch = s.link.epoch)
    (held : l.held? = s.link.held?) : Kept (s.after l.connect) := by
  obtain ⟨free, _⟩ := kept.clean (same.symm.trans phase)
  rw [Link.connect, if_pos phase]
  refine ⟨(fun h => by cases h), ?_, ?_, ?_⟩
  · have calls : s.calls = [] := by
      rw [kept.calls, ← same, phase, if_neg fun h => by cases h.1]
    show s.calls ++ [l.epoch + 1] = _
    rw [calls]
    exact (if_pos ⟨rfl, held.trans free⟩).symm
  · show Holds _ l.held?
    rw [held, free, Holds, openings_after]
    intro o ho
    show o.epoch < l.epoch + 1
    rcases List.mem_append.mp ho with old | new
    · have le := kept.holds.epoch_le o old
      omega
    · cases new
  · have released : (s.past ++ [Effect.dial (l.epoch + 1)
          (if l.config.sentinelMode then some l.sentinels else none)]).filterMap Effect.released?
        = s.past.filterMap Effect.released? := by
      rw [List.filterMap_append]
      exact List.append_nil _
    show _ = (s.past ++ [_]).filterMap _ ++ l.held?.toList
    rw [released, held, openings_after, ← kept.sockets]
    exact congrArg (List.map _) (List.append_nil s.openings)

/-- a socket comes into use -/
theorem Kept.attach (kept : s.Kept) (settled : s.link.Settled)
    (phase : s.link.phase = .connecting) (free : s.link.held? = none) (socket : Socket)
    (sentinel? : Option Nat) :
    Kept ({ s with calls := [] }.after (s.link.attach socket sentinel?)) := by
  have waiting : s.link.waiting = [] := by
    rcases settled.connecting phase with ⟨_, none⟩ | ⟨s', h, held, _⟩
    · exact none
    · rw [Link.held?, held] at free
      cases free
  obtain ⟨es, m, t, onward, turn, moves, _⟩ := Link.attach_moves phase socket sentinel?
  have lost : Link.failures (.connection "Connection lost") s.link.waitingCommands = [] := by
    rw [Link.waitingCommands, waiting]
    rfl
  have older := kept.holds
  have sockets := kept.sockets
  rw [free] at older sockets
  have held : Kept ({ s with calls := [] }.after
      ⟨s.link.holding socket, [.attached s.link.epoch socket.number sentinel?]⟩) := by
    refine ⟨fun h => ?_, ?_, ?_, ?_⟩
    · have h : s.link.phase = .disconnected := h
      rw [phase] at h
      cases h
    · exact (if_neg fun h => Option.some_ne_none socket.number h.2).symm
    · exact ⟨s.openings, _, _, openings_after _ _, rfl, older⟩
    · show _ = (s.past ++ [_]).filterMap _ ++ [socket.number]
      rw [openings_after, List.map_append, List.filterMap_append]
      exact congrArg (· ++ [socket.number]) sockets
  have calm : ∀ e ∈ es ++ t.effects, e.isCalm = true := by
    intro e he
    rcases List.mem_append.mp he with first | later
    · exact onward.calm e first
    · exact moves.calm (by simp) e later
  have stays := (onward.stays phase).trans (moves.stays (by simp))
  have all := held.stays (t := ⟨t.link, es ++ t.effects⟩) rfl calm stays
  rw [after_after] at all
  rw [turn, lost]
  exact all

/-- a command that is submitted waits, or starts a connect attempt, or is turned away -/
theorem Kept.send (kept : s.Kept) (settled : s.link.Settled) (free : s.link.held? = none)
    (c : Command) : Kept (s.after (s.link.send c)) := by
  have queue (c' : Command) (registry : Registry) :
      Kept (s.after (Link.queue c' { s.link with registry := registry })) := by
    rcases settled.phase_cases with phase | phase | phase
    · rw [Link.queue_of_disconnected (l := { s.link with registry := registry }) phase]
      exact kept.connect _ phase rfl rfl rfl
    · rw [Link.queue_of_connecting (l := { s.link with registry := registry }) phase]
      exact kept.here (by simp [Turn.of]) rfl rfl rfl (.inl rfl) fun _ => rfl
    · obtain ⟨_, ⟨s', held⟩, _⟩ := settled.connected phase
      rw [Link.held?, held] at free
      cases free
  unfold Link.send
  split
  · exact queue c s.link.registry
  · exact kept.here (Link.calm_failures _ _) rfl rfl rfl (.inl rfl) fun _ => rfl
  · next change _ _ =>
    exact queue (c.expecting (s.link.registry.apply change).2) (s.link.registry.apply change).1

/-- an attempt that is under way is the one that the link waits for -/
theorem Kept.current_of_call (kept : s.Kept) {epoch : Nat} (h : epoch ∈ s.calls) :
    s.link.epoch = epoch ∧ s.link.phase = .connecting ∧ s.link.held? = none ∧
      s.calls.erase epoch = [] := by
  have calls := kept.calls
  split at calls
  · next waits =>
    rw [calls] at h ⊢
    rw [List.mem_singleton.mp h, List.erase_cons_head]
    exact ⟨rfl, waits.1, waits.2, rfl⟩
  · rw [calls] at h
    cases h

/-- the attempt that is under way fails -/
theorem Kept.fail (kept : s.Kept) (phase : s.link.phase = .connecting) (err : Error)
    (retry : Bool) : Kept ({ s with calls := [] }.after (s.link.fail err retry)) := by
  have active : s.link.phase.isActive = true := by rw [phase]; rfl
  have calm := (Link.fail_leads_of_active active err retry).1.calm (by simp)
  have released : (s.link.fail err retry).effects.filterMap Effect.released?
      = s.link.held?.toList := by
    rw [Link.fail_of_active active, List.filterMap_append, Link.released_teardown]
    cases retry <;> exact List.append_nil _
  have link : (s.link.fail err retry).link = (s.link.teardown err).link := by
    rw [Link.fail_of_active active]
  refine kept.gone calm released ?_ ?_ ?_ ?_
  · rw [link]
    exact Nat.lt_succ_self _
  · rw [link]
    rfl
  · rw [link]
    rfl
  · rw [link]
    rfl

theorem Kept.next_of_free (kept : s.Kept) (settled : s.link.Settled)
    (running : s.link.stopped = false) (free : s.link.held? = none) (admits : s.Admits e)
    (lasting : e ≠ .shutdown) : Kept (s.next e) := by
  -- no socket of the link's own epoch has come into use
  have stale {epoch : Nat} (h : ∃ o ∈ s.openings, o.epoch = epoch) : s.link.epoch ≠ epoch := by
    obtain ⟨o, ho, rfl⟩ := h
    have holds := kept.holds
    rw [free] at holds
    exact Nat.ne_of_gt (holds o ho)
  have spoilt (f : Socket → Socket) :
      Kept (s.after (.of { s.link with socket? := s.link.socket?.map f })) := by
    have none : s.link.socket? = none := Option.map_eq_none_iff.mp free
    refine kept.here (by simp [Turn.of]) rfl rfl ?_ (.inl rfl) fun _ => rfl
    show (s.link.socket?.map f).map _ = s.link.socket?.map _
    rw [none]
    rfl
  rw [next, Link.step_of_running running]
  cases e with
  | send c => exact kept.send settled free c
  | disconnect t =>
    show Kept (s.after (s.link.disconnect t))
    unfold Link.disconnect
    split
    · exact kept.send settled free _
    · exact kept.here (by simp [Effect.isCalm]) rfl rfl rfl (.inl rfl) fun _ => rfl
  | attached epoch socket sentinel? =>
    obtain ⟨current, phase, _, calls⟩ := kept.current_of_call admits
    have e : s.link.runningStep (.attached epoch socket sentinel?)
        = s.link.attach socket sentinel? := if_pos ⟨current, phase⟩
    rw [e]
    show Kept ({ s with calls := s.calls.erase epoch }.after _)
    rw [calls]
    exact kept.attach settled phase free socket sentinel?
  | connectFailed epoch err retry =>
    obtain ⟨current, phase, _, calls⟩ := kept.current_of_call admits
    have e : s.link.runningStep (.connectFailed epoch err retry) = s.link.fail err retry :=
      if_pos current
    rw [e]
    show Kept ({ s with calls := s.calls.erase epoch }.after _)
    rw [calls]
    exact kept.fail phase err retry
  | data epoch chunk =>
    have e : s.link.runningStep (.data epoch chunk) = .of s.link := if_neg (stale admits)
    rw [e]
    exact kept.of
  | closed epoch =>
    have e : s.link.runningStep (.closed epoch) = .of s.link := if_neg (stale admits)
    rw [e]
    exact kept.of
  | readFailed epoch cause =>
    have e : s.link.runningStep (.readFailed epoch cause) = .of s.link := if_neg (stale admits)
    rw [e]
    exact kept.of
  | retry =>
    show Kept (s.after s.link.connect)
    by_cases phase : s.link.phase = .disconnected
    · exact kept.connect s.link phase rfl rfl rfl
    · rw [Link.connect, if_neg phase]
      exact kept.of
  | writesFail frames cause => exact spoilt _
  | flushesFail frames cause => exact spoilt _
  | shutdown => exact absurd rfl lasting

/-! ## plays -/

/-- what holds between two events -/
structure Sound (s : Scene) : Prop where
  settled : s.link.Settled
  kept : s.Kept

theorem sound_start (role : Role) (config : Config) : (start role config).Sound where
  settled := Link.settled_start role config
  kept :=
    { clean := fun _ => ⟨rfl, rfl⟩
      calls := rfl
      holds := fun _ ho => nomatch ho
      sockets := rfl }

theorem Sound.next (sound : s.Sound) (running : s.link.stopped = false) (admits : s.Admits e)
    (lasting : e ≠ .shutdown) : (s.next e).Sound where
  settled := by
    obtain ⟨_, _, _, settled⟩ := Link.step_leads sound.settled e
    exact settled
  kept := by
    cases held : s.link.held? with
    | none => exact sound.kept.next_of_free sound.settled running held admits lasting
    | some socket =>
      exact sound.kept.next_of_held sound.settled running (by rw [held]; rfl) admits

/-- a link that runs in the end has run all the time -/
theorem running_of_next {rest : List Event}
    (running : ((s.next e).run rest).link.stopped = false) :
    s.link.stopped = false ∧ e ≠ .shutdown := by
  rw [(run_eq _ rest).1] at running
  have before : (s.link.step e).link.stopped = false := by
    cases h : (s.link.step e).link.stopped with
    | false => rfl
    | true =>
      have still : (Link.run rest (s.next e).link).link = (s.next e).link :=
        Link.run_of_stopped h rest
      rw [still] at running
      exact h.symm.trans running
  constructor
  · cases h : s.link.stopped with
    | false => rfl
    | true =>
      have still : (s.link.step e).link = s.link := Link.run_of_stopped h [e]
      rw [still, h] at before
      cases before
  · rintro rfl
    rw [Link.step_shutdown_stopped] at before
    cases before

/-- **Soundness is kept by every play** as long as the link runs. -/
theorem Sound.run {events : List Event} (sound : s.Sound) (plays : s.Plays events)
    (running : (s.run events).link.stopped = false) : (s.run events).Sound := by
  induction events generalizing s with
  | nil => exact sound
  | cons e rest ih =>
    obtain ⟨before, lasting⟩ := running_of_next running
    exact ih (sound.next before plays.1 lasting) plays.2 running

theorem Sound.coherent (sound : s.Sound) (running : s.link.stopped = false)
    (awaits : s.link.Awaits) : Coherent s where
  sound := sound.settled.sound
  disconnected phase := by
    obtain ⟨pending, waiting, socket, registry⟩ := sound.settled.disconnected phase
    have parser := (sound.kept.clean phase).2
    exact ⟨pending, waiting, registry running, congrArg Parser.buffer parser, socket⟩
  connecting phase := by
    have calls := sound.kept.calls
    rcases sound.settled.connecting phase with ⟨free, waiting⟩ | ⟨socket, h, held, waiting⟩
    · have none : s.link.held? = none := congrArg (Option.map Socket.number) free
      rw [if_pos ⟨phase, none⟩] at calls
      refine ⟨?_, .inl ⟨free, waiting, calls⟩⟩
      rw [Link.waitingCommands, waiting]
      rfl
    · have some : s.link.held?.isSome = true := by rw [Link.held?, held]; rfl
      refine ⟨?_, .inr ⟨by rw [held]; rfl, ⟨h, waiting⟩, sound.kept.calls_of_held some⟩⟩
      rw [Link.waitingCommands, waiting]
      rfl
  connected phase := by
    obtain ⟨pending, ⟨socket, held⟩, waiting⟩ := sound.settled.connected phase
    have some : s.link.held?.isSome = true := by rw [Link.held?, held]; rfl
    refine ⟨by rw [held]; rfl, pending, ?_, sound.kept.calls_of_held some⟩
    intro w hw
    obtain ⟨c, rfl⟩ := waiting w hw
    have inQueue : c ∈ s.link.waitingCommands := List.mem_filterMap.mpr ⟨_, hw, rfl⟩
    have more := awaits c (List.mem_append_left _ inQueue)
    refine ⟨c, rfl, ?_, ?_⟩
    · show 1 ≤ c.expected - c.received
      omega
    · exact Nat.sub_le _ _

/-- the turn of a play is a chain of moves that takes in fresh commands only -/
theorem moves_of_plays (role : Role) (config : Config) {events : List Event}
    (plays : (start role config).Plays events) :
    ∃ ins, Link.Moves (.start role config) ins ((start role config).run events).past
        ((start role config).run events).link ∧
      ∀ c, .command c ∈ ins → c.Fresh := by
  obtain ⟨ins, ⟨moves, _⟩, entered⟩ := Link.run_leads (Link.settled_start role config) events
  have fresh := Command.fresh_of_entered entered (fresh_of_plays plays config.encoding)
  obtain ⟨link, past⟩ := run_eq (start role config) events
  rw [link, past]
  exact ⟨ins, moves, fun c hc => fresh c (List.mem_filterMap.mpr ⟨_, hc, rfl⟩)⟩

/-- **Phase, queues, socket and attempts always fit together.**  In every play, as long as the link
runs: the state is coherent; a socket that arrives finds no command to fail; each socket was
released before the next one came into use, and there is one socket or one attempt at most. -/
theorem coherent_of_plays (role : Role) (config : Config) (events : List Event)
    (plays : (start role config).Plays events)
    (running : ((start role config).run events).link.stopped = false) :
    let s := (start role config).run events
    Coherent s ∧
      (∀ epoch socket sentinel? err, s.Admits (.attached epoch socket sentinel?) →
        s.link.epoch = epoch ∧ s.link.phase = .connecting ∧
          (s.link.failWaiting err).effects = []) ∧
      s.openings.map Opening.socket =
        s.past.filterMap Effect.released? ++ s.link.held?.toList ∧
      s.calls.length + s.link.held?.toList.length ≤ 1 := by
  intro s
  have sound : s.Sound := (sound_start role config).run plays running
  obtain ⟨ins, moves, fresh⟩ := moves_of_plays role config plays
  have awaits : s.link.Awaits := by
    refine moves.awaits (fun c hc => ?_) fun c hc => nomatch hc
    rw [(fresh c hc).received]
    exact (fresh c hc).expected
  have coherent := sound.coherent running awaits
  refine ⟨coherent, ?_, sound.kept.sockets, ?_⟩
  · intro epoch socket sentinel? err under
    obtain ⟨current, phase, free, _⟩ := sound.kept.current_of_call under
    refine ⟨current, phase, ?_⟩
    show Link.failures err s.link.waitingCommands = []
    rw [(coherent.connecting phase).1]
    rfl
  · have calls := sound.kept.calls
    split at calls
    · next waits =>
      rw [calls, waits.2]
      exact Nat.le_refl 1
    · rw [calls]
      cases s.link.held? with
      | none => exact Nat.zero_le 1
      | some socket => exact Nat.le_refl 1

/-- a command, a socket for it, its reply, and the end of the socket -/
theorem coherent_after_ping :
    let ping := Command.ofRequest 1 (Request.ofVerb "PING") .utf8
    let events := [.send ping, .attached 1 (.fresh 7) none, .data 1 (Utf8.encode "+PONG\r\n"),
      .closed 1]
    (start .command .default).Plays events ∧
      Coherent ((start .command .default).run events) := by
  intro ping events
  have plays : (start .command .default).Plays events :=
    ⟨Command.fresh_ofRequest _ _ _, List.mem_singleton.mpr rfl, ⟨⟨1, 7, none⟩, by decide, rfl⟩,
      ⟨⟨1, 7, none⟩, by decide, rfl⟩, trivial⟩
  exact ⟨plays, (coherent_of_plays .command .default events plays (by decide)).1⟩

end
end Scene
end RespLink
