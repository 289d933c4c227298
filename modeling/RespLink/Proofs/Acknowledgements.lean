import RespLink.Proofs.Rolls
import RespLink.Proofs.WireOrder

/-!
# Acknowledgements

What a command expects is fixed when it is submitted, from the registry; what it gets is fixed when
the server reads it, from the roll.  The registry is the roll as it will be once the pending
commands are read, so the two numbers are the same, on one socket after another, and no
acknowledgement is taken for that of another command.

* `Sitting.asked`      the frames of a sitting, each with the number of replies that it awaits;
* `Roll.Answers`       a server sends as many;
* `Ahead`              the registry is the roll after the pending commands;
* `tracks_ahead`, `ahead_run`   as long as link and server make the same of every command;
* `Sitting.Timely`     replies come in order, and none before it is asked for;
* `Attends`            the replies that commands take are those after the handshake;
* `answers_of_run`, `attends_of_run`   both, on every socket of every run;
* `acknowledgements_match`   what follows for every run.
-/

namespace RespLink

/-! ## what is asked of a server -/

/-- the replies that are awaited in all -/
def Waiter.due : Waiter → Nat
  | command c => c.expected
  | handshake _ => 1

def Command.asks (c : Command) : Bytes × Nat := (c.frame, c.expected)

def Effect.asked? : Effect → Option (Bytes × Nat)
  | wrote _ w frame => some (frame, w.due)
  | _ => none

/-- the frames that are written on the socket of a sitting, each with the number of its replies -/
def Sitting.asked (x : Sitting) : List (Bytes × Nat) := x.effects.filterMap Effect.asked?

theorem Sitting.asked_extend (es : List Effect) (x : Sitting) :
    (x.extend es).asked = x.asked ++ es.filterMap Effect.asked? := List.filterMap_append

namespace Roll

/-- the server reads these frames, sends as many replies for each, and has this roll then -/
inductive Answers : Roll → List (Bytes × Nat) → Roll → Prop
  | done (r) : Answers r [] r
  | next {r r' frame count asked} (w : Wording) (framed : frame = w.frame)
    (sends : count = (r.hear w).2) (later : Answers (r.hear w).1 asked r') :
    Answers r ((frame, count) :: asked) r'

section
variable {r r' r'' : Roll} {asked more : List (Bytes × Nat)}

theorem Answers.one {frame : Bytes} {count : Nat} (w : Wording) (framed : frame = w.frame)
    (sends : count = (r.hear w).2) : Answers r [(frame, count)] (r.hear w).1 :=
  .next w framed sends (.done _)

theorem Answers.append (a : Answers r asked r') (b : Answers r' more r'') :
    Answers r (asked ++ more) r'' := by
  induction a with
  | done => exact b
  | next w framed sends _ ih => exact .next w framed sends (ih b)

/-- the commands that the frames are, and the replies that are sent for them -/
theorem Answers.read (h : Answers r asked r') :
    ∃ ws : List Wording, asked.map Prod.fst = ws.map Wording.frame ∧
      asked.map Prod.snd = r.counts ws := by
  induction h with
  | done => exact ⟨[], rfl, rfl⟩
  | next w framed sends _ ih =>
    obtain ⟨ws, frames, numbers⟩ := ih
    refine ⟨w :: ws, ?_, ?_⟩
    · rw [List.map_cons, List.map_cons, frames, framed]
    · rw [List.map_cons, numbers, sends]
      rfl

end
end Roll

/-! ## registry and roll -/

namespace Link

/-- what the account of subscriptions depends on -/
def standing (l : Link) : Option Nat × Phase × List Command × Registry × Bool :=
  (l.held?, l.phase, l.pending, l.registry, l.stopped)

/-- the server answers what is written as the link awaits, on the socket in use up to the roll `r`;
from there the pending commands lead to the keys of the registry -/
structure Ahead (r : Roll) (x : Sitting) (l : Link) : Prop where
  written : ∃ r', Roll.empty.Answers x.asked r' ∧ (l.held?.isSome = true → r' = r)
  /-- commands are written on a connected link only -/
  new : l.phase ≠ .connected → r = .empty
  pending : ∃ r', r.Answers (l.pending.map Command.asks) r' ∧
    (l.stopped = false → l.registry.Agrees r')

section
variable {l m : Link} {ins : List Intake} {es : List Effect} {steps : List (Handshake × Bytes)}
  {r : Roll} {x : Sitting}

theorem overlooks_asked : Overlooks Effect.asked? :=
  ⟨fun _ _ => rfl, fun _ => rfl, fun _ => rfl⟩

/-- nothing is written, and the link stands as it did -/
theorem Ahead.still (h : Ahead r x l) (unasked : es.filterMap Effect.asked? = [])
    (same : m.standing = l.standing) : Ahead r (x.extend es) m := by
  simp only [standing, Prod.mk.injEq] at same
  obtain ⟨held, phase, pending, registry, stopped⟩ := same
  refine ⟨?_, ?_, ?_⟩
  · rw [Sitting.asked_extend, unasked, List.append_nil, held]
    exact h.written
  · rw [phase]
    exact h.new
  · rw [pending, registry, stopped]
    exact h.pending

/-- the socket is lost, with all that was pending -/
theorem Ahead.gone (h : Ahead r x l) (unasked : es.filterMap Effect.asked? = [])
    (held : m.held? = none) (pending : m.pending = [])
    (registry : m.stopped = false → m.registry = .empty) : Ahead .empty (x.extend es) m := by
  refine ⟨?_, fun _ => rfl, .empty, ?_, fun running => ?_⟩
  · obtain ⟨r', answers, _⟩ := h.written
    rw [Sitting.asked_extend, unasked, List.append_nil, held]
    exact ⟨r', answers, fun some => by cases some⟩
  · rw [pending]
    exact .done _
  · rw [registry running]
    exact Registry.agrees_empty

/-- a step of the handshake leaves the roll empty -/
theorem Onward.ahead (onward : Onward steps l es m) (formal : Formal steps)
    (held : l.held?.isSome = true) (h : Ahead .empty x l) : Ahead .empty (x.extend es) m := by
  cases onward with
  | @ask step frame _ _ s held' =>
    obtain ⟨w, framed, neutral⟩ := formal _ List.mem_cons_self
    obtain ⟨r', answers, same⟩ := h.written
    have one : Roll.empty.Answers [(frame, 1)] (Roll.empty.hear w).1 :=
      .one w framed (by rw [neutral])
    rw [neutral] at one
    refine ⟨⟨.empty, ?_, fun _ => rfl⟩, fun _ => rfl, h.pending⟩
    rw [same held] at answers
    rw [Sitting.asked_extend]
    exact answers.append one
  | join =>
    have here : Ahead .empty (x.extend []) l := h.still rfl rfl
    exact ⟨here.written, fun _ => rfl, here.pending⟩
  | halt => exact h.still rfl rfl

/-- a command is kept that link and server take alike -/
theorem Ahead.keep (h : Ahead r x l) (running : l.stopped = false) {c : Command} {w : Wording}
    (means : c.Means w) :
    Ahead r x { l with
      pending := l.pending ++ [(l.registry.enter c).2], registry := (l.registry.enter c).1 } := by
  obtain ⟨r', answers, agrees⟩ := h.pending
  obtain ⟨agrees', sends⟩ := means.agrees (agrees running)
  refine ⟨h.written, h.new, (r'.hear w).1, ?_, fun _ => agrees'⟩
  rw [List.map_append]
  exact answers.append (.one w ((l.registry.frame_enter c).trans means.frame) sends)

/-- the first pending command is written -/
theorem Ahead.dispatch (h : Ahead r x l) {c : Command} {rest : List Command} {s : Socket}
    (phase : l.phase = .connected) (held : l.socket? = some s) (front : l.pending = c :: rest) :
    ∃ r', Ahead r' (x.extend [.wrote s.number (.command c) c.frame])
      (awaiting (.command c) s { l with pending := rest }) := by
  obtain ⟨r', answers, agrees⟩ := h.pending
  rw [front, List.map_cons, Command.asks] at answers
  cases answers with
  | next w framed sends later =>
    obtain ⟨now, written, same⟩ := h.written
    rw [same (by rw [held?, held]; rfl)] at written
    refine ⟨(r.hear w).1, ⟨_, ?_, fun _ => rfl⟩, fun apart => absurd phase apart, r', later, agrees⟩
    rw [Sitting.asked_extend]
    exact written.append (.one w framed sends)

/-- as long as no command comes in; what the registry is then, no move tells -/
theorem tracks_ahead : Tracks (fun i => i.command? = none) fun x l => ∃ r, Ahead r x l where
  extend := by
    rintro x l m ins es ⟨r, h⟩ move fits calm
    cases move with
    | refuse | rest | keep => cases fits _ List.mem_cons_self
    | dial phase free =>
      have new := h.new (by rw [phase]; decide)
      subst new
      rw [connect, if_pos phase]
      refine ⟨.empty, ?_, fun _ => rfl, h.pending⟩
      rw [Sitting.asked_extend]
      show ∃ r', Roll.empty.Answers (x.asked ++ []) r' ∧ (l.held?.isSome = true → _)
      rw [List.append_nil]
      exact h.written
    | attach => cases calm _ List.mem_cons_self
    | advance step rest reply s plain phase held front passes onward =>
      have new := h.new (by rw [phase]; decide)
      subst new
      rw [Sitting.extend_cons]
      refine ⟨.empty, onward.ahead (l.config.formal_stepsAfter step) ?_ (h.still rfl rfl)⟩
      show (l.socket?.map _).isSome = true
      rw [held]
      rfl
    | dispatch c rest s phase held front => exact h.dispatch phase held front
    | lose err retry active =>
      refine ⟨.empty, h.gone (overlooks_asked.fail active err retry) ?_ ?_ ?_⟩ <;>
        rw [fail_of_active active]
      · rfl
      · rfl
      · exact fun _ => rfl
    | push reply es known mails =>
      exact ⟨r, h.still (filterMap_mails (fun _ _ => rfl) mails) rfl⟩
    | part c rest reply err =>
      refine ⟨.empty, h.gone ?_ rfl rfl fun _ => rfl⟩
      rw [List.filterMap_cons_none rfl, List.filterMap_append, overlooks_asked.teardown]
      rfl
    | spoil f same =>
      refine ⟨r, h.still rfl ?_⟩
      rw [standing, standing, l.held?_spoilt same]
    | stop => exact ⟨.empty, h.gone (overlooks_asked.shutdown l) rfl rfl fun run => by cases run⟩
    | _ => exact ⟨r, h.still rfl rfl⟩
  attach := by
    rintro x l m es ⟨r, h⟩ socket sentinel? err phase onward
    have new := h.new (by rw [phase]; decide)
    subst new
    have fresh : Ahead .empty
        ⟨some ⟨l.epoch, socket.number, sentinel?⟩, failures err l.waitingCommands⟩
        (l.holding socket) := by
      refine ⟨⟨.empty, ?_, fun _ => rfl⟩, fun _ => rfl, h.pending⟩
      rw [Sitting.asked, filterMap_failures overlooks_asked.failed]
      exact .done _
    exact ⟨.empty, onward.ahead (l.config.formal_greeting sentinel?) rfl fresh⟩

/-! ## runs -/

/-- a command is turned away, or a link that runs takes it -/
theorem step_of_command {e : Event} {c : Command} (h : e.command? l.config.encoding = some c) :
    (∃ effect, l.step e = ⟨l, [effect]⟩ ∧ effect.opening? = none ∧ effect.asked? = none) ∨
      l.stopped = false ∧ l.step e = l.send c := by
  cases running : l.stopped with
  | true =>
    left
    rw [step_of_stopped running]
    cases e <;> cases h <;> exact ⟨_, rfl, rfl, rfl⟩
  | false =>
    rw [step_of_running running]
    cases e <;> cases h
    · exact .inr ⟨rfl, rfl⟩
    · rw [runningStep, disconnect]
      split
      · exact .inr ⟨rfl, rfl⟩
      · exact .inl ⟨_, rfl, rfl, rfl⟩

/-- **Every event keeps the registry ahead of the roll.** -/
theorem ahead_step {s : Sittings} (settled : Settled l) (pubsub : l.role = .pubsub) (e : Event)
    (means : ∀ c, e.command? l.config.encoding = some c → ∃ w, c.Means w)
    (before : Tracked (fun x l => ∃ r, Ahead r x l) s l) :
    Tracked (fun x l => ∃ r, Ahead r x l) (s.notes (l.step e).effects) (l.step e).link := by
  cases command : e.command? l.config.encoding with
  | none =>
    obtain ⟨ins, brings, lead⟩ := step_leads settled e
    have commands := brings.commands
    rw [command] at commands
    have none : ins.filterMap Intake.command? = [] := List.forall₂_nil_left_iff.mp commands
    exact lead.1.tracks tracks_ahead (List.filterMap_eq_nil_iff.mp none) before
  | some c =>
    obtain ⟨w, means⟩ := means c command
    obtain ⟨⟨r, ahead⟩, past⟩ := before
    obtain ⟨effect, same, calm, unasked⟩ | ⟨running, same⟩ := step_of_command command
    · rw [same, Sittings.notes_of_calm fun e he => by rw [List.mem_singleton.mp he, calm]]
      exact ⟨⟨r, ahead.still (List.filterMap_cons_none unasked) rfl⟩, past⟩
    · obtain ⟨ins, form, lead⟩ :=
        kept_leads settled (l.registry.enter c).2 (l.registry.enter c).1
      have quiet : ∀ i ∈ ins, i.command? = none := by
        rcases form with rfl | ⟨_, rfl⟩ <;> simp [Intake.command?]
      rw [same, send_of_pubsub pubsub]
      exact lead.1.tracks tracks_ahead quiet ⟨⟨r, ahead.keep running means⟩, past⟩

theorem ahead_run {s : Sittings} (settled : Settled l) (pubsub : l.role = .pubsub)
    {events : List Event}
    (means : ∀ c ∈ events.filterMap (Event.command? l.config.encoding), ∃ w, c.Means w)
    (before : Tracked (fun x l => ∃ r, Ahead r x l) s l) :
    Tracked (fun x l => ∃ r, Ahead r x l) (s.notes (run events l).effects) (run events l).link := by
  induction events generalizing l s with
  | nil => exact before
  | cons e rest ih =>
    obtain ⟨ins, _, lead⟩ := step_leads settled e
    obtain ⟨role, config⟩ := lead.1.same
    have first := ahead_step settled pubsub e
      (fun c hc => means c (List.mem_filterMap.mpr ⟨e, List.mem_cons_self, hc⟩)) before
    rw [run, Turn.andThen_effects, Turn.andThen_link, Sittings.notes_append]
    refine ih lead.2 (role.trans pubsub) (fun c hc => ?_) first
    rw [config] at hc
    obtain ⟨e', inside, some⟩ := List.mem_filterMap.mp hc
    exact means c (List.mem_filterMap.mpr ⟨e', List.mem_cons_of_mem _ inside, some⟩)

end
end Link

/-! ## replies in time -/

/-- a step of the handshake is written -/
def Effect.greeting? : Effect → Option Bytes
  | wrote _ (.handshake _) frame => some frame
  | _ => none

namespace Sitting

/-- the frames of the handshake -/
def greetings (x : Sitting) : List Bytes := x.effects.filterMap Effect.greeting?

theorem greetings_extend (es : List Effect) (x : Sitting) :
    (x.extend es).greetings = x.greetings ++ es.filterMap Effect.greeting? := List.filterMap_append

/-- each frame has a group of replies; those that came so far are at any time the first ones to the
frames that were written so far -/
def Timely (x : Sitting) (groups : List (List Reply)) : Prop :=
  ∀ front ∈ x.effects.inits, front.filterMap Effect.reply? <+:
    (groups.take (front.filterMap Effect.asked?).length).flatten

instance (x : Sitting) (groups : List (List Reply)) : Decidable (x.Timely groups) :=
  inferInstanceAs (Decidable (∀ front ∈ x.effects.inits, _ <+: _))

/-- the groups have the sizes that the link awaits, as far as frames are written -/
def Grouped (x : Sitting) (groups : List (List Reply)) : Prop :=
  x.asked.map Prod.snd <+: groups.map List.length

section
variable {x : Sitting} {groups : List (List Reply)}

theorem Timely.of_extend {es : List Effect} (h : (x.extend es).Timely groups) :
    x.Timely groups := by
  intro front inside
  refine h front ((List.mem_inits _ _).mpr (((List.mem_inits _ _).mp inside).trans ?_))
  exact List.prefix_append x.effects es

theorem Timely.replies (h : x.Timely groups) :
    x.replies <+: (groups.take x.asked.length).flatten :=
  h x.effects ((List.mem_inits _ _).mpr List.prefix_rfl)

theorem Grouped.of_extend {es : List Effect} (h : (x.extend es).Grouped groups) :
    x.Grouped groups := by
  refine List.IsPrefix.trans ?_ h
  rw [asked_extend, List.map_append]
  exact List.prefix_append _ _

/-- what is awaited in all: one reply for each step of the handshake, and the slots -/
theorem total_asked (x : Sitting) :
    (x.asked.map Prod.snd).foldr (· + ·) 0 = x.greetings.length + slots x.books.written := by
  show ((x.effects.filterMap Effect.asked?).map Prod.snd).foldr (· + ·) 0
    = (x.effects.filterMap Effect.greeting?).length + slots (x.effects.filterMap Effect.command?)
  induction x.effects with
  | nil => rfl
  | cons e es ih =>
    cases e with
    | wrote socket w frame =>
      cases w with
      | command c =>
        show c.expected + ((es.filterMap Effect.asked?).map Prod.snd).foldr (· + ·) 0
          = (es.filterMap Effect.greeting?).length
            + (c.expected + slots (es.filterMap Effect.command?))
        omega
      | handshake h =>
        show 1 + ((es.filterMap Effect.asked?).map Prod.snd).foldr (· + ·) 0
          = (es.filterMap Effect.greeting?).length + 1 + slots (es.filterMap Effect.command?)
        omega
    | _ => exact ih

theorem Grouped.length (h : x.Grouped groups) :
    (groups.take x.asked.length).flatten.length = x.greetings.length + slots x.books.written := by
  have sizes : (groups.take x.asked.length).map List.length = x.asked.map Prod.snd := by
    rw [List.map_take, List.prefix_iff_eq_take.mp h, List.length_map]
  rw [List.length_flatten, sizes]
  exact x.total_asked

/-- no more replies come than are awaited -/
theorem Timely.length_le (h : x.Timely groups) (grouped : x.Grouped groups) :
    x.replies.length ≤ x.greetings.length + slots x.books.written := by
  rw [← grouped.length]
  exact h.replies.length_le

end
end Sitting

namespace Link
section
variable {l m : Link} {ins : List Intake} {es : List Effect} {steps : List (Handshake × Bytes)}
  {x : Sitting}

/-- the replies that commands take against those that met the link -/
inductive Attends (x : Sitting) (l : Link) : Prop
  /-- a step of the handshake is not answered yet -/
  | asking (step : Handshake) (waiting : l.waiting = [.handshake step])
    (phase : l.phase = .connecting) (untaken : x.books.taken = [])
    (open' : x.replies.length + 1 = x.greetings.length)
  | serving (phase : l.phase = .connected) (greeted : x.greetings.length ≤ x.replies.length)
    (taken : x.books.taken = x.replies.drop x.greetings.length)
  | lost (mute : Mute l) (taken : x.books.taken <+: x.replies.drop x.greetings.length)

/-- commands take the replies after those to the handshake -/
theorem Attends.taken (h : Attends x l) : x.books.taken <+: x.replies.drop x.greetings.length := by
  cases h with
  | asking _ _ _ untaken =>
    rw [untaken]
    exact List.nil_prefix
  | serving _ _ taken =>
    rw [taken]
  | lost _ taken => exact taken

theorem overlooks_greeting : Overlooks Effect.greeting? :=
  ⟨fun _ _ => rfl, fun _ => rfl, fun _ => rfl⟩

/-- only a step of the handshake is a greeting -/
theorem greetings_of_talk (talk : ∀ y ∈ es.filterMap Effect.exchange?, y.isTalk = true) :
    es.filterMap Effect.greeting? = [] := by
  refine List.filterMap_eq_nil_iff.mpr fun e he => ?_
  cases e with
  | wrote socket w frame =>
    cases w with
    | command => rfl
    | handshake h => cases talk _ (List.mem_filterMap.mpr ⟨_, he, rfl⟩)
  | _ => rfl

/-- the handshake goes on, with all steps so far answered -/
theorem Onward.attends (onward : Onward steps l es m) (phase : l.phase = .connecting)
    (waiting : l.waiting = []) (untaken : x.books.taken = [])
    (answered : x.replies.length = x.greetings.length) : Attends (x.extend es) m := by
  have untaken' : (x.extend es).books.taken = [] := by
    rw [books_extend_of_empty onward.books]
    exact untaken
  have replies : (x.extend es).replies = x.replies := by
    rw [Sitting.replies_extend, onward.replies, List.append_nil]
  cases onward with
  | @ask step frame _ _ s =>
    refine .asking step ?_ phase untaken' ?_
    · show l.waiting ++ _ = _
      rw [waiting]
      rfl
    · rw [replies, Sitting.greetings_extend, answered, List.length_append]
      rfl
  | join =>
    have same : (x.extend []).greetings = x.greetings :=
      (x.greetings_extend []).trans (List.append_nil _)
    refine .serving rfl ?_ ?_
    · rw [replies, same, answered]
    · rw [untaken', replies, same, ← answered, List.drop_length]
  | halt =>
    refine .lost ⟨waiting, fun h => ?_⟩ (untaken' ▸ List.nil_prefix)
    rw [phase] at h
    cases h

/-- whatever becomes of the link, as long as no greeting is written and commands take no other
replies than those that come -/
theorem Attends.on (h : Attends x l) (phase : l.phase = .connected)
    (greetings : es.filterMap Effect.greeting? = [])
    (taken : es.filterMap Effect.taken? = es.filterMap Effect.reply?)
    (next : m.phase = .connected ∨ Mute m) : Attends (x.extend es) m := by
  cases h with
  | asking _ _ phase' => rw [phase] at phase'; cases phase'
  | lost mute => exact absurd phase mute.phase
  | serving _ greeted all =>
    have same : (x.extend es).greetings = x.greetings := by
      rw [Sitting.greetings_extend, greetings, List.append_nil]
    have greeted' : (x.extend es).greetings.length ≤ (x.extend es).replies.length := by
      rw [same, Sitting.replies_extend, List.length_append]
      exact Nat.le_add_right_of_le greeted
    have all' : (x.extend es).books.taken
        = (x.extend es).replies.drop (x.extend es).greetings.length := by
      rw [same, books_extend, Sitting.replies_extend, List.drop_append_of_le_length greeted, ← all,
        ← taken]
      rfl
    rcases next with phase' | mute
    · exact .serving phase' greeted' all'
    · exact .lost mute (all' ▸ List.prefix_rfl)

/-- a link on which commands wait hands each reply to a command, or has none that waits -/
theorem Move.taken_of_connected (h : Move l ins es m) (phase : l.phase = .connected)
    (waiting : ∀ w ∈ l.waiting, ∃ c, w = .command c) :
    es.filterMap Effect.taken? = es.filterMap Effect.reply? ∨
      l.waiting = [] ∧ ∃ reply, es = [.met none reply] := by
  have active : l.phase.isActive = true := by rw [phase]; rfl
  cases h with
  | refuse | rest | keep | pass | hear | dispatch | take | finish | spoil => exact .inl rfl
  | dial phase' => rw [phase] at phase'; cases phase'
  | attach _ _ _ phase' => rw [phase] at phase'; cases phase'
  | advance _ _ _ _ _ phase' => rw [phase] at phase'; cases phase'
  | balk step rest _ _ front =>
    obtain ⟨c, hc⟩ := waiting (.handshake step) (by rw [front]; exact List.mem_cons_self)
    cases hc
  | lose err retry =>
    left
    rw [overlooks_taken.fail active, overlooks_reply.fail active]
  | push reply es known mails =>
    left
    rw [filterMap_mails (fun _ _ => rfl) mails, filterMap_mails (fun _ _ => rfl) mails]
  | drop reply plain front => exact .inr ⟨front, reply, rfl⟩
  | part c rest reply err =>
    left
    show reply :: List.filterMap Effect.taken? (_ ++ _)
      = reply :: List.filterMap Effect.reply? (_ ++ _)
    rw [List.filterMap_append, List.filterMap_append, overlooks_taken.teardown,
      overlooks_reply.teardown]
    rfl
  | stop =>
    left
    rw [overlooks_taken.shutdown, overlooks_reply.shutdown]

/-- no reply is dropped while it can come in time -/
theorem Booked.no_drop {groups : List (List Reply)} {reply : Reply} (h : Booked x l)
    (attends : Attends x l) (phase : l.phase = .connected) (idle : l.waiting = [])
    (timely : (x.extend [.met none reply]).Timely groups)
    (grouped : (x.extend [.met none reply]).Grouped groups) : False := by
  have most : (x.replies ++ [reply]).length
      ≤ (x.greetings ++ []).length + slots x.books.written := by
    have most := timely.length_le grouped
    rw [books_extend_of_drop, Sitting.replies_extend, Sitting.greetings_extend] at most
    exact most
  rw [List.append_nil, List.length_append, List.length_singleton] at most
  cases attends with
  | asking _ waiting => rw [idle] at waiting; cases waiting
  | lost mute => exact mute.phase phase
  | serving _ greeted taken =>
    cases h.serves with
    | early early => exact early.phase phase
    | lost mute => exact mute.phase phase
    | serving _ _ waiting =>
      rw [idle] at waiting
      have full := length_eq_slots h.enough (List.map_eq_nil_iff.mp waiting.symm)
      rw [taken, List.length_drop] at full
      omega

theorem Attends.move_of_asking {step : Handshake} (waiting : l.waiting = [.handshake step])
    (phase : l.phase = .connecting) (untaken : x.books.taken = [])
    (open' : x.replies.length + 1 = x.greetings.length) (move : Move l ins es m)
    (calm : ∀ e ∈ es, e.opening? = none) : Attends (x.extend es) m := by
  have active : l.phase.isActive = true := by rw [phase]; rfl
  have untaken' (none : es.filterMap Effect.taken? = []) : (x.extend es).books.taken = [] := by
    rw [books_extend]
    show x.books.taken ++ es.filterMap Effect.taken? = []
    rw [untaken, none, List.append_nil]
  have gone (mute : Mute m) (none : es.filterMap Effect.taken? = []) : Attends (x.extend es) m :=
    .lost mute (by rw [untaken' none]; exact List.nil_prefix)
  have still (taken : es.filterMap Effect.taken? = []) (replies : es.filterMap Effect.reply? = [])
      (greetings : es.filterMap Effect.greeting? = []) (waiting' : m.waiting = l.waiting)
      (phase' : m.phase = l.phase) : Attends (x.extend es) m := by
    refine .asking step (waiting'.trans waiting) (phase'.trans phase) (untaken' taken) ?_
    rw [Sitting.replies_extend, Sitting.greetings_extend, replies, greetings, List.append_nil,
      List.append_nil, open']
  cases move with
  | refuse | rest | keep | pass | hear | spoil => exact still rfl rfl rfl rfl rfl
  | dial phase' => rw [phase] at phase'; cases phase'
  | attach => cases calm _ List.mem_cons_self
  | advance step' rest reply s plain _ held front passes onward =>
    rw [waiting] at front
    cases front
    rw [Sitting.extend_cons]
    refine onward.attends phase rfl ?_ ?_
    · rw [books_extend]
      exact (List.append_nil _).trans untaken
    · rw [Sitting.replies_extend, Sitting.greetings_extend, List.length_append, List.length_append]
      exact open'
  | balk step' rest reply plain front =>
    rw [waiting] at front
    cases front
    exact gone ⟨rfl, fun h => by rw [phase] at h; cases h⟩ rfl
  | dispatch _ _ _ phase' => rw [phase] at phase'; cases phase'
  | lose err retry =>
    exact gone (mute_fail active err retry) (overlooks_taken.fail active err retry)
  | push reply es known mails =>
    have none {α : Type} {f : Effect → Option α} (unseen : ∀ m p, f (.delivered m p) = .none) :
        es.filterMap f = [] := filterMap_mails unseen mails
    exact still (none fun _ _ => rfl) (none fun _ _ => rfl) (none fun _ _ => rfl) rfl rfl
  | drop _ _ front => rw [waiting] at front; cases front
  | take _ _ _ _ front => rw [waiting] at front; cases front
  | finish _ _ _ _ front => rw [waiting] at front; cases front
  | part _ _ _ _ _ _ front => rw [waiting] at front; cases front
  | stop => exact gone ⟨rfl, fun h => nomatch h⟩ (overlooks_taken.shutdown l)

theorem Attends.move_of_lost (mute : Mute l)
    (taken : x.books.taken <+: x.replies.drop x.greetings.length) (move : Move l ins es m)
    (calm : ∀ e ∈ es, e.opening? = none) : Attends (x.extend es) m := by
  obtain ⟨mute', silent⟩ := mute.move move calm
  have greetings : (x.extend es).greetings = x.greetings := by
    rw [Sitting.greetings_extend,
      greetings_of_talk fun y hy => Exchange.isTalk_of_isGot (silent y hy), List.append_nil]
  have same : (x.extend es).books.taken = x.books.taken := by
    obtain ⟨none | ⟨reply, rfl⟩, _⟩ := mute.early.move move calm
    · rw [books_extend_of_empty none]
    · rw [books_extend_of_drop]
  refine .lost mute' ?_
  rw [same, greetings, Sitting.replies_extend, List.drop_append]
  exact taken.trans (List.prefix_append _ _)

theorem Attends.move {groups : List (List Reply)} (h : Attends x l) (booked : Booked x l)
    (move : Move l ins es m) (calm : ∀ e ∈ es, e.opening? = none)
    (timely : (x.extend es).Timely groups) (grouped : (x.extend es).Grouped groups) :
    Attends (x.extend es) m := by
  cases h with
  | asking _ waiting phase untaken open' =>
    exact move_of_asking waiting phase untaken open' move calm
  | lost mute taken => exact move_of_lost mute taken move calm
  | serving phase greeted taken =>
    have attends : Attends x l := .serving phase greeted taken
    cases booked.serves with
    | early early => exact absurd phase early.phase
    | lost mute => exact absurd phase mute.phase
    | serving held _ waiting =>
      obtain ⟨socket, held⟩ := Option.isSome_iff_exists.mp held
      have commands : ∀ w ∈ l.waiting, ∃ c, w = .command c := by
        rw [waiting]
        intro w hw
        obtain ⟨c, _, rfl⟩ := List.mem_map.mp hw
        exact ⟨c, rfl⟩
      obtain ⟨next, talk⟩ := Talking.move ⟨held, phase, commands⟩ move calm
      have next' : m.phase = .connected ∨ Mute m := next.imp_left Talking.phase
      obtain taken | ⟨idle, reply, rfl⟩ := move.taken_of_connected phase commands
      · exact attends.on phase (greetings_of_talk talk) taken next'
      · exact (booked.no_drop attends phase idle timely grouped).elim

theorem tracks_attends :
    Tracks (fun i => ∀ c, i = .command c → c.Fresh) fun x l => Booked x l ∧
      ∀ groups, x.Timely groups → x.Grouped groups → Attends x l where
  extend := by
    rintro x l m ins es ⟨booked, attends⟩ move fits calm
    refine ⟨tracks_booked.extend booked move fits calm, fun groups timely grouped => ?_⟩
    exact (attends groups timely.of_extend grouped.of_extend).move booked move calm timely grouped
  attach := by
    rintro x l m es ⟨booked, _⟩ socket sentinel? err phase onward
    refine ⟨tracks_booked.attach booked socket sentinel? err phase onward, fun groups _ _ => ?_⟩
    have start : Attends (Sitting.extend es
        ⟨some ⟨l.epoch, socket.number, sentinel?⟩, failures err l.waitingCommands⟩) m := by
      refine onward.attends phase rfl ?_ ?_
      · rw [Sitting.books, books_failures]
        rfl
      · rw [Sitting.replies, Sitting.greetings, filterMap_failures overlooks_reply.failed,
          filterMap_failures overlooks_greeting.failed]
        rfl
    exact start

/-! ## greetings first, then commands -/

theorem asked_of_greetings (none : es.filterMap Effect.command? = []) :
    es.filterMap Effect.asked? = (es.filterMap Effect.greeting?).map fun frame => (frame, 1) := by
  rw [List.map_filterMap]
  refine List.filterMap_congr fun e he => ?_
  have unseen := List.filterMap_eq_nil_iff.mp none e he
  cases e with
  | wrote socket w frame =>
    cases w with
    | command c => cases unseen
    | handshake h => rfl
  | _ => rfl

theorem asked_of_talk (talk : ∀ y ∈ es.filterMap Effect.exchange?, y.isTalk = true) :
    es.filterMap Effect.asked? = (es.filterMap Effect.command?).map Command.asks := by
  rw [List.map_filterMap]
  refine List.filterMap_congr fun e he => ?_
  cases e with
  | wrote socket w frame =>
    have fits := talk _ (List.mem_filterMap.mpr ⟨_, he, rfl⟩)
    cases w with
    | command c =>
      have own : frame = c.frame := of_decide_eq_true fits
      rw [own]
      rfl
    | handshake h => cases fits
  | _ => rfl

theorem unwritten_of_dialogue {done : List ((Handshake × Bytes) × Reply)}
    (greeted : es.filterMap Effect.exchange? = dialogue done) :
    es.filterMap Effect.command? = [] := by
  refine List.filterMap_eq_nil_iff.mpr fun e he => ?_
  cases written : e.command? with
  | none => rfl
  | some c =>
    obtain ⟨socket, frame, rfl⟩ := Effect.wrote_of_command written
    refine absurd ?_ (command_not_mem_dialogue done c frame)
    rw [← greeted]
    exact List.mem_filterMap.mpr ⟨_, he, rfl⟩

theorem Guarded.asked {config : Config} (h : Guarded config x l) :
    x.asked = (x.greetings.map fun frame => (frame, 1)) ++ x.books.written.map Command.asks := by
  by_cases unwritten : x.books.written = []
  · rw [Sitting.asked, asked_of_greetings unwritten, unwritten, List.map_nil, List.append_nil]
    rfl
  · obtain ⟨c, inside⟩ := List.exists_mem_of_ne_nil _ unwritten
    obtain ⟨e, he, written⟩ := List.mem_filterMap.mp inside
    obtain ⟨socket, frame, rfl⟩ := Effect.wrote_of_command written
    obtain ⟨o, _, done, talk, _, _, split, talks⟩ := h.opened he
    -- the effects of the handshake, then those of the commands
    obtain ⟨front, back, whole, greeted, talked⟩ := List.filterMap_eq_append_iff.mp split
    have none := unwritten_of_dialogue greeted
    rw [← talked] at talks
    have greetings : x.greetings = front.filterMap Effect.greeting? := by
      rw [Sitting.greetings, whole, List.filterMap_append, greetings_of_talk talks, List.append_nil]
    have commands : x.books.written = back.filterMap Effect.command? := by
      show x.effects.filterMap Effect.command? = _
      rw [whole, List.filterMap_append, none, List.nil_append]
    rw [Sitting.asked, whole, List.filterMap_append, asked_of_greetings none, asked_of_talk talks,
      greetings, ← commands]

theorem Guarded.asked_frames {config : Config} (h : Guarded config x l) :
    x.asked.map Prod.fst = x.greetings ++ x.books.written.map Command.frame := by
  rw [h.asked, List.map_append, List.map_map, List.map_map]
  congr 1
  exact List.map_id _

theorem Guarded.asked_counts {config : Config} (h : Guarded config x l) :
    x.asked.map Prod.snd =
      List.replicate x.greetings.length 1 ++ x.books.written.map Command.expected := by
  rw [h.asked, List.map_append, List.map_map, List.map_map]
  congr 1
  exact List.map_const

end

/-- groups of one reply each, and the groups behind them -/
theorem drop_flatten_of_ones {groups : List (List Reply)} {n : Nat} {rest : List Nat}
    (sizes : groups.map List.length = List.replicate n 1 ++ rest) :
    groups.flatten.drop n = (groups.drop n).flatten ∧ (groups.drop n).map List.length = rest := by
  have ones : (groups.take n).map List.length = List.replicate n 1 := by
    rw [List.map_take, sizes, List.take_left' List.length_replicate]
  have front : (groups.take n).flatten.length = n := by
    rw [List.length_flatten, ones, List.sum_replicate_nat, Nat.mul_one]
  refine ⟨?_, ?_⟩
  · have whole := congrArg List.flatten (List.take_append_drop n groups)
    rw [List.flatten_append] at whole
    rw [← whole, List.drop_left' front]
  · rw [List.map_drop, sizes, List.drop_left' List.length_replicate]

/-- acknowledgements in time go to the commands that they are for -/
theorem Attends.keeps_groups {x : Sitting} {l k : Link} (h : Attends x l) (booked : Booked x k)
    {groups : List (List Reply)} (timely : x.Timely groups)
    (sizes : groups.map List.length =
      List.replicate x.greetings.length 1 ++ x.books.written.map Command.expected) :
    x.books.account.filterMap Entry.took? <+:
        takings x.books.written (groups.drop x.greetings.length) ∧
      x.books.account.filterMap Entry.gave? <+:
        results x.books.written (groups.drop x.greetings.length) := by
  obtain ⟨behind, own⟩ := drop_flatten_of_ones sizes
  have replies : x.replies <+: groups.flatten :=
    timely.replies.trans ((List.take_prefix _ _).flatten)
  have front := h.taken.trans (replies.drop x.greetings.length)
  rw [behind] at front
  rw [booked.account]
  exact ledger_groups own front

/-- on every socket of a run the server answers what is written as the link awaits -/
theorem answers_of_run (config : Config) (events : List Event)
    (means : ∀ c ∈ events.filterMap (Event.command? config.encoding), ∃ w, c.Means w)
    {x : Sitting} (hx : x ∈ (Sittings.of (run events (start .pubsub config)).effects).all) :
    ∃ r, Roll.empty.Answers x.asked r := by
  have new : Ahead .empty ⟨none, []⟩ (start .pubsub config) :=
    ⟨⟨.empty, .done _, fun _ => rfl⟩, fun _ => rfl, .empty, .done _,
      fun _ => Registry.agrees_empty⟩
  obtain ⟨_, _, ahead⟩ := (ahead_run (settled_start .pubsub config) rfl means
    (s := ⟨⟨none, []⟩, []⟩) ⟨⟨_, new⟩, fun x hx => nomatch hx⟩).exists hx
  obtain ⟨r, answers, _⟩ := ahead.written
  exact ⟨r, answers⟩

/-- on every socket of a run, if all replies are in time, commands take those after the handshake -/
theorem attends_of_run (role : Role) (config : Config) (events : List Event)
    (fresh : ∀ c ∈ events.filterMap (Event.command? config.encoding), c.Fresh)
    {x : Sitting} (hx : x ∈ (Sittings.of (run events (start role config)).effects).all) :
    ∃ l, Booked x l ∧ ∀ groups, x.Timely groups → x.Grouped groups → Attends x l := by
  obtain ⟨ins, ⟨moves, _⟩, entered⟩ := run_leads (settled_start role config) events
  have fits : ∀ i ∈ ins, ∀ c, i = .command c → c.Fresh := fun i hi c hc =>
    Command.fresh_of_entered entered fresh c (List.mem_filterMap.mpr ⟨i, hi, by rw [hc]; rfl⟩)
  have new : Booked ⟨none, []⟩ (start role config) ∧
      ∀ groups, Sitting.Timely ⟨none, []⟩ groups → Sitting.Grouped ⟨none, []⟩ groups →
        Attends ⟨none, []⟩ (start role config) :=
    ⟨(left_start role config).booked, fun _ _ _ =>
      .lost ⟨rfl, fun h => nomatch h⟩ List.nil_prefix⟩
  exact (moves.tracks tracks_attends fits (s := ⟨⟨none, []⟩, []⟩)
    ⟨new, fun x hx => nomatch hx⟩).exists hx

/-- **What a command expects is what the server sends for it.**  A client submits commands of any
calls to its link for subscriptions, and sockets come, break and fail to come.  On every socket that
comes into use, take what is written as the commands that its bytes are, those of the handshake
first, and a server with nothing subscribed that reads them: it sends one reply for each step of the
handshake and for each command as many as the link awaits for it.  So whatever these replies are, as
long as none comes before its command every reply is taken by the command that it was sent for, and
every command resolves from its own. -/
theorem acknowledgements_match (config : Config) (utf8 : config.encoding = .utf8)
    (events : List Event) (calls : ∀ c, .send c ∈ events → Client.Puts config c) :
    let t := run events (start .pubsub config)
    ∀ x ∈ (Sittings.of t.effects).all, ∃ said : List Wording,
      x.asked.map Prod.fst = said.map Wording.frame ∧
      x.asked.map Prod.fst = x.greetings ++ x.books.written.map Command.frame ∧
      Roll.empty.counts said =
        List.replicate x.greetings.length 1 ++ x.books.written.map Command.expected ∧
      ∀ groups : List (List Reply),
        groups.map List.length = Roll.empty.counts said → x.Timely groups →
        x.books.account.filterMap Entry.took? <+:
            takings x.books.written (groups.drop x.greetings.length) ∧
          x.books.account.filterMap Entry.gave? <+:
            results x.books.written (groups.drop x.greetings.length) := by
  intro t x hx
  have submitted : ∀ c ∈ events.filterMap (Event.command? config.encoding),
      c.Fresh ∧ ∃ w, c.Means w := by
    intro c hc
    obtain ⟨e, inside, some⟩ := List.mem_filterMap.mp hc
    cases e <;> cases some
    · exact ⟨Client.fresh_of_puts (calls c inside), Client.means_of_puts utf8 (calls c inside)⟩
    · exact ⟨Command.fresh_ofRequest _ _ _, _,
        Command.means_of_neutral (Wording.neutral_of_verb (by decide) _)⟩
  obtain ⟨r, answers⟩ := answers_of_run config events (fun c hc => (submitted c hc).2) hx
  obtain ⟨k, booked, attends⟩ :=
    attends_of_run .pubsub config events (fun c hc => (submitted c hc).1) hx
  obtain ⟨_, guarded⟩ := guarded_of_run .pubsub config events hx
  obtain ⟨said, frames, numbers⟩ := answers.read
  have counts : Roll.empty.counts said =
      List.replicate x.greetings.length 1 ++ x.books.written.map Command.expected :=
    numbers.symm.trans guarded.asked_counts
  refine ⟨said, frames, guarded.asked_frames, counts, fun groups sizes timely => ?_⟩
  have grouped : x.Grouped groups := by
    rw [Sitting.Grouped, numbers, sizes]
  rw [counts] at sizes
  exact (attends groups timely grouped).keeps_groups booked timely sizes

/-- a key twice, then all keys, then none at all, after a password; and all keys once more on the
next socket, where nothing is subscribed -/
theorem acknowledgements_match_over_two_sockets :
    let config := { Config.default with password := some "secret" }
    let put (t : Ticket) (call : Call) : List Event :=
      (Client.commands config t call.request).filterMap fun p =>
        if p.1 = .pubsub then some (.send p.2) else none
    let events := put 1 (.subscribe ["a", "a", "b"]) ++ put 2 (.unsubscribe []) ++
      put 3 (.subscribe []) ++ [.attached 1 (.fresh 7) none,
        .data 1 (Utf8.encode "+OK\r\n:1\r\n:1\r\n:2\r\n:1\r\n:0\r\n-ERR\r\n"), .closed 1] ++
      put 4 (.unsubscribe []) ++ [.attached 3 (.fresh 8) none, .data 3 (Utf8.encode "+OK\r\n")]
    let groups : List (List Reply) :=
      [[.simple "OK"], [.integer 1, .integer 1, .integer 2], [.integer 1, .integer 0],
        [.error "ERR"]]
    let t := run events (start .pubsub config)
    config.encoding = .utf8 ∧ (∀ c, .send c ∈ events → Client.Puts config c) ∧
      (∃ x ∈ (Sittings.of t.effects).past, x.books.written.map Command.expected = [3, 2, 1] ∧
        x.books.account.length = 9 ∧ x.Timely groups ∧
        ∃ said : List Wording, x.asked.map Prod.fst = said.map Wording.frame ∧
          Roll.empty.counts said = [1, 3, 2, 1] ∧
          x.books.account.filterMap Entry.took? <+: takings x.books.written (groups.drop 1) ∧
          x.books.account.filterMap Entry.gave? <+: results x.books.written (groups.drop 1)) ∧
      ∃ said : List Wording,
        (Sittings.of t.effects).latest.asked.map Prod.fst = said.map Wording.frame ∧
          Roll.empty.counts said = [1, 1] := by
  intro config put events groups t
  have puts (t : Ticket) (call : Call) (c : Command) (inside : .send c ∈ put t call) :
      Client.Puts config c := by
    obtain ⟨⟨role, c'⟩, there, sent⟩ := List.mem_filterMap.mp inside
    split at sent
    · next pubsub =>
      cases sent
      exact ⟨t, call, by rw [← show role = .pubsub from pubsub]; exact there⟩
    · cases sent
  have calls : ∀ c, .send c ∈ events → Client.Puts config c := by
    intro c inside
    simp only [events, List.mem_append, List.mem_cons, List.not_mem_nil, or_false, reduceCtorEq]
      at inside
    rcases inside with (((first | second) | third) | fourth)
    · exact puts 1 _ c first
    · exact puts 2 _ c second
    · exact puts 3 _ c third
    · exact puts 4 _ c fourth
  have each := acknowledgements_match config rfl events calls
  obtain ⟨x, past, one, expected, entries, timely⟩ : ∃ x ∈ (Sittings.of t.effects).past,
      x.greetings.length = 1 ∧ x.books.written.map Command.expected = [3, 2, 1] ∧
        x.books.account.length = 9 ∧ x.Timely groups := by decide +kernel
  obtain ⟨one', expected'⟩ : (Sittings.of t.effects).latest.greetings.length = 1 ∧
      (Sittings.of t.effects).latest.books.written.map Command.expected = [1] := by decide +kernel
  refine ⟨rfl, calls, ⟨x, past, expected, entries, timely, ?_⟩, ?_⟩
  · obtain ⟨said, frames, _, counts, settled⟩ := each x (List.mem_cons_of_mem _ past)
    rw [one, expected] at counts
    obtain ⟨took, gave⟩ := settled groups (by rw [counts]; rfl) timely
    rw [one] at took gave
    exact ⟨said, frames, counts, took, gave⟩
  · obtain ⟨said, frames, _, counts, _⟩ := each _ List.mem_cons_self
    rw [one', expected'] at counts
    exact ⟨said, frames, counts⟩

end Link
end RespLink
