import RespLink.Client.Call
import RespLink.Proofs.Cuts
import Mathlib.Data.List.Induction

/-!
# Asides

On a link for subscriptions the server speaks between its replies.  A push may come between any two
replies of a socket, in the handshake too, and in as many pieces as the network likes.  The link
goes on as if it had not come; what was subscribed hears it once.

* `Notice`      a push as a server sends it, and what it says;
* `Cue`         one thing of a run with pushes: an event, or a piece of a push;
* `half`        the bytes of a push that is half said;
* `Woven`       pushes stand between whole replies, and each is said to its end;
* `Scene.told`  the effects of a run with pushes, told along the run without them;
* `blind_progress`  an event that brings no bytes does not see the parser;
* `Alongside`   the two runs side by side; every cue keeps it;
* `run_eq_run_of_woven`   the two runs lead to the same, deliveries apart.
-/

namespace RespLink

/-! ## pushes -/

inductive Notice where
  | message (channel payload : Reply)
  | pmessage (pattern channel payload : Reply)

namespace Notice

def reply : Notice → Reply
  | message channel payload => .array [.bulk (Utf8.encode "message"), channel, payload]
  | pmessage pattern channel payload =>
    .array [.bulk (Utf8.encode "pmessage"), pattern, channel, payload]

def kind : Notice → Kind
  | message .. => .channel
  | pmessage .. => .pattern

/-- what a subscription that hears it names -/
def key (e : Encoding) : Notice → String
  | message channel _ => Push.elementText e channel
  | pmessage pattern _ _ => Push.elementText e pattern

def push (e : Encoding) : Notice → Push
  | message channel payload => ⟨Push.elementText e channel, Push.elementText e payload, none⟩
  | pmessage pattern channel payload =>
    ⟨Push.elementText e channel, Push.elementText e payload, some (Push.elementText e pattern)⟩

theorem read_reply (e : Encoding) (n : Notice) : Push.read e n.reply = some (n.push e) := by
  have word (literal : String) :
      Reply.isBulk literal (.bulk (Utf8.encode literal)) = true := beq_self_eq_true _
  cases n with
  | message => rw [reply, Push.read, Push.readItems, if_pos (word _), push]
  | pmessage => rw [reply, Push.read, Push.readItems, if_pos (word _), push]

theorem destination?_push (r : Registry) (e : Encoding) (n : Notice) :
    r.destination? (n.push e) = (r.of n.kind).get? (n.key e) := by
  cases n <;> rfl

end Notice

theorem Link.push?_of_pubsub {l : Link} (pubsub : l.role = .pubsub) (reply : Reply) :
    l.push? reply = Push.read l.config.encoding reply := by
  rw [Link.push?, pubsub]

/-! ## runs with pushes -/

inductive Cue where
  | event (e : Event)
  /-- a piece of a push, from the socket of an epoch; the rest is still to come -/
  | murmur (epoch : Nat) (bytes : Bytes)
  /-- the last piece of a push -/
  | aside (epoch : Nat) (bytes : Bytes) (notice : Notice)

namespace Cue

/-- in the run without pushes -/
def event? : Cue → Option Event
  | event e => some e
  | murmur .. | aside .. => none

/-- in the run with pushes -/
def heard : Cue → Event
  | event e => e
  | murmur epoch bytes | aside epoch bytes _ => .data epoch bytes

/-- the bytes of the push on this socket that is half said, one cue later -/
def after (epoch : Nat) (said : Bytes) : Cue → Bytes
  | event _ => said
  | murmur n bytes => if n = epoch then said ++ bytes else said
  | aside n _ _ => if n = epoch then [] else said

end Cue

/-- the bytes of the push on this socket that is half said -/
def half (epoch : Nat) (cues : List Cue) : Bytes := cues.foldl (Cue.after epoch) []

/-- the bytes of a socket, pushes apart -/
def own (epoch : Nat) (cues : List Cue) : Bytes :=
  (bytesOf epoch (cues.filterMap Cue.event?)).flatten

/-- the decoder reads these bytes to their end -/
def Reply.Whole (bs : Bytes) : Prop := (readAll bs).rest = [] ∧ (readAll bs).fault = none

namespace Cue

/-- a push begins where all replies so far are whole, and nothing else comes from its socket until
it is said -/
def Fits (before : List Cue) : Cue → Prop
  | event (.data epoch _) => half epoch before = []
  | event _ => True
  | murmur epoch bytes =>
    Reply.Whole (own epoch before) ∧ Reply.decode (half epoch before ++ bytes) = .incomplete
  | aside epoch bytes notice => Reply.Whole (own epoch before) ∧
    Reply.decode (half epoch before ++ bytes) = .complete (notice.reply, [])

end Cue

/-- cues that can follow others -/
def WovenAfter : List Cue → List Cue → Prop
  | _, [] => True
  | before, cue :: rest => cue.Fits before ∧ WovenAfter (before ++ [cue]) rest

def Woven (cues : List Cue) : Prop := WovenAfter [] cues

instance (bs : Bytes) : Decidable (Reply.Whole bs) := inferInstanceAs (Decidable (_ ∧ _))

instance (before : List Cue) (cue : Cue) : Decidable (cue.Fits before) :=
  match cue with
  | .event (.data epoch _) => inferInstanceAs (Decidable (half epoch before = []))
  | .event (.send _) | .event (.disconnect _) | .event (.attached ..) | .event (.connectFailed ..)
  | .event (.closed _) | .event (.readFailed ..) | .event .retry | .event (.writesFail ..)
  | .event (.flushesFail ..) | .event .shutdown => inferInstanceAs (Decidable True)
  | .murmur .. | .aside .. => inferInstanceAs (Decidable (_ ∧ _))

instance decidableWovenAfter : (before cues : List Cue) → Decidable (WovenAfter before cues)
  | _, [] => inferInstanceAs (Decidable True)
  | before, cue :: rest =>
    have := decidableWovenAfter (before ++ [cue]) rest
    inferInstanceAs (Decidable (cue.Fits before ∧ WovenAfter (before ++ [cue]) rest))

instance (cues : List Cue) : Decidable (Woven cues) := decidableWovenAfter [] cues

namespace Scene

/-- who hears a push from the socket of an epoch, if that socket is in use -/
def hears (s : Scene) (epoch : Nat) (notice : Notice) : Option Mailbox :=
  if s.inUse?.map Opening.epoch = some epoch then
    (s.link.registry.of notice.kind).get? (notice.key s.link.config.encoding)
  else none

/-- the effects of a run with pushes, along the run without them: whoever hears a push hears it
once, at the moment when it is said -/
def told : Scene → List Cue → List Effect
  | _, [] => []
  | s, .event e :: rest => (s.link.step e).effects ++ told (s.next e) rest
  | s, .murmur _ _ :: rest => told s rest
  | s, .aside epoch _ notice :: rest =>
    ((s.hears epoch notice).toList.map fun mailbox =>
      .delivered mailbox (notice.push s.link.config.encoding)) ++ told s rest

end Scene

def Effect.isDelivered : Effect → Bool
  | delivered .. => true
  | _ => false

/-! ## cues -/

section
variable {cues before : List Cue} {cue : Cue}

theorem half_snoc (epoch : Nat) (cues : List Cue) (cue : Cue) :
    half epoch (cues ++ [cue]) = cue.after epoch (half epoch cues) :=
  List.foldl_append

theorem wovenAfter_snoc : WovenAfter before (cues ++ [cue]) ↔
    WovenAfter before cues ∧ cue.Fits (before ++ cues) := by
  induction cues generalizing before with
  | nil =>
    rw [List.append_nil]
    exact (and_iff_left trivial).trans (and_iff_right trivial).symm
  | cons first rest ih =>
    rw [show before ++ first :: rest = (before ++ [first]) ++ rest by simp]
    exact (and_congr_right fun _ => ih).trans and_assoc.symm

theorem Woven.front (woven : Woven (cues ++ [cue])) : Woven cues := (wovenAfter_snoc.mp woven).1

theorem Woven.last (woven : Woven (cues ++ [cue])) : cue.Fits cues := (wovenAfter_snoc.mp woven).2

/-- what is half said is no whole reply yet -/
theorem Woven.half_waits (woven : Woven cues) (epoch : Nat) :
    Reply.decode (half epoch cues) = .incomplete := by
  induction cues using List.reverseRecOn with
  | nil => rfl
  | append_singleton cues cue ih =>
    have before := ih woven.front
    have fits := woven.last
    rw [half_snoc]
    cases cue with
    | event e => exact before
    | murmur n bytes =>
      show Reply.decode (if n = epoch then _ else _) = _
      split
      · next same => exact same ▸ fits.2
      · exact before
    | aside n bytes notice =>
      show Reply.decode (if n = epoch then _ else _) = _
      split
      · rfl
      · exact before

end

/-! ## parsers and whole replies -/

namespace Fed
open RespLink.Parser
variable {bs : Bytes}

/-- a parser is where it would be with nothing but its buffer -/
theorem of_buffer (bs : Bytes) :
    (Fed.of bs).parser = (Fed.of (Fed.of bs).parser.buffer).parser := by
  have again := congrArg Fed.parser (of_append bs [])
  rw [List.append_nil, feed, feed_of_resumes (resumes_of bs), List.append_nil] at again
  exact again

theorem of_whole (whole : Reply.Whole bs) : (Fed.of bs).parser = .empty := by
  rw [of_buffer, (of_reads bs).buffer, whole.1]
  rfl

theorem of_waiting (waits : Reply.decode bs = .incomplete) :
    (Fed.of bs).replies = [] ∧ (Fed.of bs).fault = none := by
  obtain ⟨offset, owed, scan⟩ := scan_of_incomplete waits
  rw [of_pending scan]
  exact ⟨rfl, rfl⟩

/-- more bytes of a reply that waits -/
theorem feed_waiting (waits : Reply.decode bs = .incomplete) (more : Bytes) :
    (Fed.of bs).parser.feed more = Fed.of (bs ++ more) := by
  rw [of_append, feed, (of_waiting waits).1]
  rfl

theorem of_reply {reply : Reply} (read : Reply.decode bs = .complete (reply, [])) :
    Fed.of bs = ⟨.empty, [reply], none⟩ := by
  have scan := scan_of_decode read
  rw [List.length_nil, Nat.sub_zero] at scan
  have all : Reply.decode (bs.take bs.length) = .complete (reply, []) := by
    rw [List.take_length, read]
  rw [of_frame scan, round_of_read all, List.drop_length]
  rfl

end Fed

/-! ## events that bring no bytes -/

namespace Link

theorem blind_queueing (c : Command) : Blind (queueing c) := by
  intro p l
  have phase : (l.reading p).phase = l.phase := rfl
  rw [queueing, queueing, phase]
  split
  · exact blind_writing _ _ p l
  · rfl

theorem blind_sending (c : Command) : Blind (sending c) := by
  intro p l
  have role : (l.reading p).role = l.role := rfl
  rw [sending, sending, role]
  cases c.change? with
  | none => exact blind_queueing c p l
  | some change =>
    cases l.role with
    | command => rfl
    | pubsub =>
      exact blind_queueing (c.expecting (l.registry.apply change).2) p
        { l with role := .pubsub, registry := (l.registry.apply change).1 }

/-- an event that brings neither bytes nor a socket does not see the parser -/
theorem blind_progress {e : Event} (bytes : ∀ epoch chunk, e ≠ .data epoch chunk)
    (socket : ∀ epoch n i, e ≠ .attached epoch n i) : Blind (progress · e) := by
  intro p l
  have epoch : (l.reading p).epoch = l.epoch := rfl
  cases e with
  | send c => exact blind_sending c p l
  | disconnect t => exact blind_sending (Command.ofRequest t quit l.config.encoding) p l
  | attached epoch n i => exact absurd rfl (socket epoch n i)
  | data epoch chunk => exact absurd rfl (bytes epoch chunk)
  | connectFailed | closed | readFailed =>
    dsimp only [progress]
    rw [epoch]
    split <;> rfl
  | retry | writesFail | flushesFail | shutdown => rfl

end Link

/-! ## side by side -/

namespace Scene

/-- a run with pushes beside the run without them, when of each socket's next push these bytes are
said: the two differ in what has been delivered, and in what the parser holds of a push -/
structure Alongside (said : Nat → Bytes) (s t : Scene) : Prop where
  link : t.link = s.link.reading t.link.parser
  calls : t.calls = s.calls
  rest : t.past.filter (fun x => !x.isDelivered) = s.past.filter (fun x => !x.isDelivered)
  free : s.link.held? = none → t.link.parser = s.link.parser
  held : s.link.held?.isSome = true →
    t.link.parser = (s.link.parser.feed (said s.link.epoch)).parser
  /-- a push is heard once its socket is in use -/
  opened : ∀ n, said n ≠ [] → ∃ o ∈ s.openings, o.epoch = n

section
variable {s t : Scene} {e : Event} {said : Nat → Bytes}

theorem filterMap_rest {α : Type} {f : Effect → Option α}
    (unseen : ∀ mailbox push, f (.delivered mailbox push) = none) (es : List Effect) :
    (es.filter fun x => !x.isDelivered).filterMap f = es.filterMap f := by
  rw [List.filterMap_filter]
  refine List.filterMap_congr fun x _ => ?_
  cases x <;> first | rfl | exact (unseen _ _).symm

theorem Alongside.openings (h : Alongside said s t) : t.openings = s.openings := by
  have same := congrArg (List.filterMap Effect.opening?) h.rest
  rw [filterMap_rest fun _ _ => rfl, filterMap_rest fun _ _ => rfl] at same
  exact same

theorem Alongside.admits (h : Alongside said s t) (admits : t.Admits e) : s.Admits e := by
  have calls := h.calls
  have openings := h.openings
  cases e <;> simp only [Admits, calls, openings] at admits ⊢ <;> exact admits

/-- nothing is half said on the socket in use -/
theorem Alongside.of_same (link : t.link = s.link) (calls : t.calls = s.calls)
    (rest : t.past.filter (fun x => !x.isDelivered) = s.past.filter (fun x => !x.isDelivered))
    (silent : s.link.held?.isSome = true → said s.link.epoch = [])
    (opened : ∀ n, said n ≠ [] → ∃ o ∈ s.openings, o.epoch = n) (reached : s.Reached) :
    Alongside said s t where
  link := by rw [link]; rfl
  calls := calls
  rest := rest
  free _ := by rw [link]
  held some := by
    rw [link, silent some, (reached.parser some).feed_nil]
  opened := opened

theorem Alongside.same (h : Alongside said s t) (reached : s.Reached)
    (silent : s.link.held?.isSome = true → said s.link.epoch = []) : t.link = s.link := by
  have parser : t.link.parser = s.link.parser := by
    cases held : s.link.held? with
    | none => exact h.free held
    | some socket =>
      have some : s.link.held?.isSome = true := by rw [held]; rfl
      rw [h.held some, silent some, (reached.parser some).feed_nil]
  rw [h.link, parser]
  rfl

/-- an epoch in which something is half said is not one that begins -/
theorem Alongside.silent_next (h : Alongside said s t) (reached : s.Reached)
    (silent : s.link.held?.isSome = true → said s.link.epoch = []) :
    said (s.next e).link.epoch = [] := by
  by_contra speaks
  obtain ⟨o, ho, same⟩ := h.opened _ speaks
  have rises : s.link.epoch ≤ (s.next e).link.epoch := by
    obtain ⟨_, _, moves, _⟩ := Link.step_leads reached.settled e
    exact moves.rises.epoch
  have holds := reached.dated.holds
  have le := holds.epoch_le o ho
  have current : (s.next e).link.epoch = s.link.epoch := by omega
  cases held : s.link.held? with
  | none =>
    rw [held] at holds
    have lt := holds o ho
    omega
  | some socket =>
    rw [current] at speaks
    exact speaks (silent (by rw [held]; rfl))

/-- one event later, if it has the same effects -/
theorem calls_next (calls : t.calls = s.calls)
    (effects : (t.link.step e).effects = (s.link.step e).effects) :
    (t.next e).calls = (s.next e).calls := by
  show e.outcome?.elim t.calls t.calls.erase ++ (t.link.step e).effects.filterMap _ = _
  rw [calls, effects]
  rfl

theorem Alongside.rest_next (h : Alongside said s t)
    (effects : (t.link.step e).effects = (s.link.step e).effects) :
    (t.next e).past.filter (fun x => !x.isDelivered)
      = (s.next e).past.filter (fun x => !x.isDelivered) := by
  show (t.past ++ (t.link.step e).effects).filter _ = (s.past ++ (s.link.step e).effects).filter _
  rw [List.filter_append, List.filter_append, h.rest, effects]

/-- an event that meets the same link twice -/
theorem Alongside.next_of_same (h : Alongside said s t) (reached : s.Reached)
    (admits : s.Admits e) (silent : s.link.held?.isSome = true → said s.link.epoch = []) :
    Alongside said (s.next e) (t.next e) ∧
      (t.link.step e).effects = (s.link.step e).effects := by
  have turn : t.link.step e = s.link.step e := by rw [h.same reached silent]
  have effects := congrArg Turn.effects turn
  refine ⟨.of_same (congrArg Turn.link turn) (calls_next h.calls effects) (h.rest_next effects)
    (fun _ => h.silent_next reached silent) (fun n speaks => ?_) (reached.next admits), effects⟩
  exact opened_next (h.opened n speaks) e

/-- the socket is in use as long as the epoch is the same -/
theorem Reached.held_of_epoch (reached : s.Reached) (admits : s.Admits e)
    (held : s.link.held?.isSome = true) (same : (s.next e).link.epoch = s.link.epoch) :
    (s.next e).link.held?.isSome = true := by
  obtain ⟨socket, held⟩ := Option.isSome_iff_exists.mp held
  have holds := reached.dated.holds
  rw [held] at holds
  obtain ⟨before, epoch, sentinel?, openings, rfl, _⟩ := holds
  have last : ∃ o ∈ s.openings, o.epoch = s.link.epoch := by
    rw [openings]
    exact ⟨_, List.mem_append_right _ List.mem_cons_self, rfl⟩
  obtain ⟨o, ho, current⟩ := opened_next last e
  have later := (reached.next admits).dated.holds
  cases lost : (s.next e).link.held? with
  | some socket => rfl
  | none =>
    rw [lost] at later
    have lt := later o ho
    omega

/-- an event that brings no bytes, on a link that holds a socket -/
theorem Alongside.next_of_held (h : Alongside said s t) (reached : s.Reached) (reached' : t.Reached)
    (admits : s.Admits e) (admits' : t.Admits e) (held : s.link.held?.isSome = true)
    (bytes : ∀ epoch chunk, e ≠ .data epoch chunk) :
    Alongside said (s.next e) (t.next e) ∧
      (t.link.step e).effects = (s.link.step e).effects := by
  have running := reached.running_of_held held
  have sound := reached.dated.sound running
  have active := sound.settled.active_of_held held
  have socket : ∀ epoch n i, e ≠ .attached epoch n i := by
    rintro epoch n i rfl
    have under : epoch ∈ s.calls := admits
    rw [sound.kept.calls_of_held held] at under
    cases under
  have blind := Link.blind_progress bytes socket
  obtain ⟨whole, lasts, _, _⟩ := sound.tells running active admits
  have whole' : (t.link.progress e).whole = t.link.step e := by
    have running' : t.link.stopped = false := by rw [h.link]; exact running
    have active' : t.link.phase.isActive = true := by rw [h.link]; exact active
    exact ((reached'.dated.sound running').tells running' active' admits').whole
  have beside : t.link.progress e = (s.link.progress e).reading t.link.parser :=
    (congrArg (Link.progress · e) h.link).trans (blind t.link.parser s.link)
  rw [beside] at whole'
  have parser := blind.parser s.link
  cases progress : s.link.progress e with
  | through u =>
    rw [progress] at whole whole' lasts parser
    have link : (s.next e).link = u.link := congrArg Turn.link whole.symm
    have link' : (t.next e).link = u.link.reading t.link.parser := congrArg Turn.link whole'.symm
    have effects : (t.link.step e).effects = (s.link.step e).effects := by
      rw [← whole', ← whole]
      rfl
    have epoch : (s.next e).link.epoch = s.link.epoch := by rw [link]; exact lasts.epoch
    have held' := reached.held_of_epoch admits held epoch
    refine ⟨⟨?_, calls_next h.calls effects, h.rest_next effects, fun none => ?_, fun _ => ?_,
      fun n speaks => opened_next (h.opened n speaks) e⟩, effects⟩
    · rw [link', link]
      rfl
    · rw [none] at held'
      cases held'
    · rw [epoch, link', link, show u.link.parser = s.link.parser from parser]
      exact h.held held
  | upTo u d =>
    rw [progress] at whole whole' lasts
    have turn : t.link.step e = s.link.step e := by
      rw [← whole', ← whole]
      exact Link.whole_upTo_reading (lasts.active active) d t.link.parser u.link.parser
    have effects := congrArg Turn.effects turn
    have rests := (sound.rests_of_ended running active admits progress).socket
    refine ⟨.of_same (congrArg Turn.link turn) (calls_next h.calls effects) (h.rest_next effects)
      (fun some => ?_) (fun n speaks => opened_next (h.opened n speaks) e)
      (reached.next admits), effects⟩
    rw [show (s.next e).link.held? = none from congrArg (Option.map Socket.number) rests] at some
    cases some

/-- an event of the run without pushes -/
theorem Alongside.event (h : Alongside said s t) (reached : s.Reached) (reached' : t.Reached)
    (admits' : t.Admits e) (fits : ∀ epoch chunk, e = .data epoch chunk → said epoch = []) :
    s.Admits e ∧ Alongside said (s.next e) (t.next e) ∧
      (t.link.step e).effects = (s.link.step e).effects := by
  have admits := h.admits admits'
  refine ⟨admits, ?_⟩
  cases held : s.link.held? with
  | none => exact h.next_of_same reached admits fun some => by rw [held] at some; cases some
  | some socket =>
    have some : s.link.held?.isSome = true := by rw [held]; rfl
    by_cases bytes : ∃ epoch chunk, e = .data epoch chunk
    · obtain ⟨epoch, chunk, rfl⟩ := bytes
      by_cases current : s.link.epoch = epoch
      · exact h.next_of_same reached admits fun _ => fits _ chunk (by rw [current])
      · -- a chunk of another socket passes both links
        have current' : t.link.epoch ≠ epoch := by rw [h.link]; exact current
        rw [next_of_stale rfl current, next_of_stale rfl current',
          Link.step_of_stale rfl current, Link.step_of_stale rfl current']
        exact ⟨h, rfl⟩
    · exact h.next_of_held reached reached' admits admits' some fun epoch chunk is =>
        bytes ⟨epoch, chunk, is⟩

/-! ## pieces of pushes -/

variable {n : Nat} {bytes : Bytes}

/-- what the link with pushes makes of a piece, if its socket is in use -/
theorem Alongside.receive_piece (h : Alongside said s t) (reached : s.Reached)
    (opened : ∃ o ∈ s.openings, o.epoch = s.link.epoch) (whole : s.link.parser = .empty)
    (waits : Reply.decode (said s.link.epoch) = .incomplete) (bytes : Bytes) :
    t.link.step (.data s.link.epoch bytes) = t.link.receive bytes ∧
      t.link.parser.feed bytes = Fed.of (said s.link.epoch ++ bytes) := by
  have held := reached.held_of_opened opened
  have running : t.link.stopped = false := by rw [h.link]; exact reached.running_of_held held
  have current : t.link.epoch = s.link.epoch := by rw [h.link]; rfl
  refine ⟨(Link.step_of_running running _).trans (if_pos current), ?_⟩
  rw [h.held held, whole]
  exact Fed.feed_waiting waits bytes

/-- one piece later, if its socket is in use and the link has met nothing but pushes -/
theorem Alongside.next_piece (h : Alongside said s t) (reached : s.Reached)
    (opened : ∃ o ∈ s.openings, o.epoch = s.link.epoch) (whole : s.link.parser = .empty)
    {said' : Nat → Bytes} {p : Parser} {es : List Effect}
    (turn : t.link.step (.data s.link.epoch bytes) = ⟨t.link.reading p, es⟩)
    (parser : p = (Fed.of (said' s.link.epoch)).parser)
    (mails : ∀ x ∈ es, ∃ mailbox push, x = .delivered mailbox push)
    (others : ∀ m, m ≠ s.link.epoch → said' m = said m) :
    Alongside said' s (t.next (.data s.link.epoch bytes)) := by
  have next : t.next (.data s.link.epoch bytes)
      = t.after ⟨t.link.reading p, es⟩ := by
    rw [next, turn]
    rfl
  rw [next]
  refine ⟨?_, ?_, ?_, fun none => ?_, fun _ => ?_, fun m speaks => ?_⟩
  · show t.link.reading _ = s.link.reading _
    rw [h.link]
    rfl
  · show t.calls ++ es.filterMap Effect.call? = s.calls
    rw [Link.filterMap_mails (fun _ _ => rfl) mails, List.append_nil, h.calls]
  · have silent : es.filter (fun x => !x.isDelivered) = [] := by
      refine List.filter_eq_nil_iff.mpr fun x hx => ?_
      obtain ⟨mailbox, push, rfl⟩ := mails x hx
      exact Bool.false_ne_true
    show (t.past ++ es).filter _ = _
    rw [List.filter_append, silent, List.append_nil, h.rest]
  · have held := reached.held_of_opened opened
    rw [none] at held
    cases held
  · rw [whole]
    exact parser
  · by_cases here : m = s.link.epoch
    · rw [here]
      exact opened
    · rw [others m here] at speaks
      exact h.opened m speaks

/-- and if its socket is not in use -/
theorem Alongside.next_late (h : Alongside said s t) (late : s.link.epoch ≠ n)
    (opened : ∃ o ∈ s.openings, o.epoch = n) {said' : Nat → Bytes}
    (others : ∀ m, m ≠ n → said' m = said m) :
    Alongside said' s (t.next (.data n bytes)) ∧ (t.link.step (.data n bytes)).effects = [] := by
  have late' : t.link.epoch ≠ n := by rw [h.link]; exact late
  rw [next_of_stale rfl late', Link.step_of_stale rfl late']
  refine ⟨⟨h.link, h.calls, h.rest, h.free, ?_, fun m speaks => ?_⟩, rfl⟩
  · rw [others _ late]
    exact h.held
  · by_cases here : m = n
    · rw [here]
      exact opened
    · rw [others m here] at speaks
      exact h.opened m speaks

/-- a piece of a push that goes on -/
theorem Alongside.murmur (h : Alongside said s t) (reached : s.Reached)
    (opened : ∃ o ∈ s.openings, o.epoch = n) (whole : s.link.epoch = n → s.link.parser = .empty)
    (waits : Reply.decode (said n) = .incomplete)
    (fits : Reply.decode (said n ++ bytes) = .incomplete) :
    Alongside (fun m => Cue.after m (said m) (.murmur n bytes)) s (t.next (.data n bytes)) ∧
      (t.link.step (.data n bytes)).effects = [] := by
  have others (m : Nat) (other : m ≠ n) : Cue.after m (said m) (.murmur n bytes) = said m :=
    if_neg (Ne.symm other)
  by_cases current : s.link.epoch = n
  · subst current
    obtain ⟨step, feed⟩ := h.receive_piece reached opened (whole rfl) waits bytes
    obtain ⟨replies, fault⟩ := Fed.of_waiting fits
    have here : Cue.after s.link.epoch (said s.link.epoch) (.murmur s.link.epoch bytes)
        = said s.link.epoch ++ bytes := if_pos rfl
    have turn : t.link.step (.data s.link.epoch bytes)
        = ⟨t.link.reading (Fed.of (said s.link.epoch ++ bytes)).parser, []⟩ := by
      rw [step, Link.receive, feed, replies, fault]
      rfl
    refine ⟨h.next_piece reached opened (whole rfl) turn ?_ (List.forall_mem_nil _) others, ?_⟩
    · rw [here]
    · rw [turn]
  · exact h.next_late current opened others

/-- the last piece of a push -/
theorem Alongside.aside (h : Alongside said s t) (reached : s.Reached)
    (role : s.link.role = .pubsub) (opened : ∃ o ∈ s.openings, o.epoch = n)
    (whole : s.link.epoch = n → s.link.parser = .empty)
    (waits : Reply.decode (said n) = .incomplete) {notice : Notice}
    (fits : Reply.decode (said n ++ bytes) = .complete (notice.reply, [])) :
    Alongside (fun m => Cue.after m (said m) (.aside n bytes notice)) s (t.next (.data n bytes)) ∧
      (t.link.step (.data n bytes)).effects = (s.hears n notice).toList.map fun mailbox =>
        .delivered mailbox (notice.push s.link.config.encoding) := by
  have others (m : Nat) (other : m ≠ n) : Cue.after m (said m) (.aside n bytes notice) = said m :=
    if_neg (Ne.symm other)
  by_cases current : s.link.epoch = n
  · subst current
    obtain ⟨step, feed⟩ := h.receive_piece reached opened (whole rfl) waits bytes
    have here :
        Cue.after s.link.epoch (said s.link.epoch) (.aside s.link.epoch bytes notice) = [] :=
      if_pos rfl
    have hears : s.hears s.link.epoch notice =
        s.link.registry.destination? (notice.push s.link.config.encoding) := by
      obtain ⟨o, ho, same⟩ := opened
      rw [Scene.hears, (reached.dated.epoch_eq_iff ho).mp same, Option.map_some, same, if_pos rfl,
        Notice.destination?_push]
    have push : t.link.push? notice.reply = some (notice.push s.link.config.encoding) := by
      rw [h.link]
      exact (Link.push?_of_pubsub (l := s.link.reading t.link.parser) role _).trans
        (notice.read_reply _)
    have spoken : (t.link.reading .empty).onReply notice.reply
        = ⟨t.link.reading .empty, (s.hears s.link.epoch notice).toList.map fun mailbox =>
          .delivered mailbox (notice.push s.link.config.encoding)⟩ := by
      have registry : (t.link.reading .empty).registry = s.link.registry := by rw [h.link]; rfl
      rw [Link.onReply, show (t.link.reading .empty).push? notice.reply = _ from push, hears]
      dsimp only
      rw [registry]
    have turn : t.link.step (.data s.link.epoch bytes)
        = ⟨t.link.reading .empty, (s.hears s.link.epoch notice).toList.map fun mailbox =>
          .delivered mailbox (notice.push s.link.config.encoding)⟩ := by
      have current : (t.link.reading .empty).epoch = t.link.epoch := rfl
      rw [step, Link.receive, feed, Fed.of_reply fits]
      show Turn.andThen (Link.onReplies t.link.epoch [notice.reply] (t.link.reading .empty)) _ = _
      rw [Link.onReplies, if_pos current, spoken]
      simp only [Link.onReplies, Link.onFault, Turn.andThen, Turn.of, List.append_nil]
    refine ⟨h.next_piece reached opened (whole rfl) turn ?_ (fun x hx => ?_) others, ?_⟩
    · rw [here]
      rfl
    · obtain ⟨mailbox, _, rfl⟩ := List.mem_map.mp hx
      exact ⟨mailbox, _, rfl⟩
    · rw [turn]
  · have unheard : s.hears n notice = none := by
      refine if_neg fun inUse => current ?_
      obtain ⟨o, used, same⟩ := Option.map_eq_some_iff.mp inUse
      rw [← same]
      exact ((reached.dated.epoch_eq_iff (mem_of_inUse used)).mpr used).symm
    rw [unheard]
    exact h.next_late current opened others

/-! ## whole runs -/

theorem told_snoc (s : Scene) (cues : List Cue) (cue : Cue) :
    s.told (cues ++ [cue]) = s.told cues ++ (s.run (cues.filterMap Cue.event?)).told [cue] := by
  induction cues generalizing s with
  | nil => rfl
  | cons first rest ih =>
    cases first with
    | event e =>
      show _ ++ (s.next e).told (rest ++ [cue]) = (_ ++ _) ++ _
      rw [ih, List.append_assoc]
      rfl
    | murmur epoch bytes => exact ih s
    | aside epoch bytes notice =>
      show _ ++ s.told (rest ++ [cue]) = (_ ++ _) ++ _
      rw [ih, List.append_assoc]
      rfl

/-- where all replies of the socket in use are whole, its parser holds nothing -/
theorem parser_of_whole {role : Role} {config : Config} {events : List Event}
    (plays : (start role config).Plays events)
    (held : ((start role config).run events).link.held?.isSome = true)
    (whole : Reply.Whole (bytesOf ((start role config).run events).link.epoch events).flatten) :
    ((start role config).run events).link.parser = .empty := by
  have reached : ((start role config).run events).Reached := ⟨role, config, events, plays, rfl⟩
  obtain ⟨fault, parser, _⟩ :=
    (heard_of_plays role config plays).now (reached.running_of_held held) held
  obtain ⟨met, rest, all, same, ends⟩ := Parser.feedChunks_eq_feedOn .empty
    (bytesOf ((start role config).run events).link.epoch events)
  rw [same] at fault parser
  -- no fault, so every chunk was met
  rw [ends.resolve_right fun bad => bad fault, List.append_nil] at all
  rw [← all, Parser.feedOn_empty, Fed.of_whole whole] at parser
  exact parser.symm

/-- **Every cue keeps the two runs side by side.** -/
theorem alongside (config : Config) {cues : List Cue} (woven : Woven cues)
    (plays : (start .pubsub config).Plays (cues.map Cue.heard)) :
    (start .pubsub config).Plays (cues.filterMap Cue.event?) ∧
      Alongside (half · cues) ((start .pubsub config).run (cues.filterMap Cue.event?))
        ((start .pubsub config).run (cues.map Cue.heard)) ∧
      ((start .pubsub config).run (cues.map Cue.heard)).past
        = (start .pubsub config).told cues := by
  induction cues using List.reverseRecOn with
  | nil =>
    refine ⟨trivial, .of_same rfl rfl rfl (fun _ => rfl) (fun _ speaks => absurd rfl speaks)
      (reached_start .pubsub config), rfl⟩
  | append_singleton cues cue ih =>
    rw [List.map_append, plays_append] at plays
    obtain ⟨plays', before, told⟩ := ih woven.front plays.1
    have admits' := plays.2.1
    have reached : ((start .pubsub config).run (cues.filterMap Cue.event?)).Reached :=
      ⟨_, _, _, plays', rfl⟩
    have reached' : ((start .pubsub config).run (cues.map Cue.heard)).Reached :=
      ⟨_, _, _, plays.1, rfl⟩
    have waits := woven.front.half_waits
    have fits := woven.last
    have said : (half · (cues ++ [cue])) = fun m => cue.after m (half m cues) :=
      funext fun m => half_snoc m cues cue
    have role : ((start .pubsub config).run (cues.filterMap Cue.event?)).link.role = .pubsub :=
      (heard_of_plays .pubsub config plays').same.1
    rw [List.filterMap_append, List.map_append, run_append, run_append, told_snoc, said,
      plays_append]
    have still {n : Nat} (whole : Reply.Whole (own n cues))
        (opened : ∃ o ∈ ((start .pubsub config).run (cues.filterMap Cue.event?)).openings,
          o.epoch = n) :
        ((start .pubsub config).run (cues.filterMap Cue.event?)).link.epoch = n →
          ((start .pubsub config).run (cues.filterMap Cue.event?)).link.parser = .empty := by
      rintro rfl
      exact parser_of_whole plays' (reached.held_of_opened opened) whole
    generalize (start .pubsub config).run (cues.filterMap Cue.event?) = s at *
    generalize (start .pubsub config).run (cues.map Cue.heard) = t at *
    cases cue with
    | event e =>
      have admits' : t.Admits e := admits'
      obtain ⟨admits, later, effects⟩ :=
        before.event reached reached' admits' fun epoch chunk is => by
          subst is
          exact fits
      refine ⟨⟨plays', admits, trivial⟩, later, ?_⟩
      show t.past ++ (t.link.step e).effects = _ ++ ((s.link.step e).effects ++ [])
      rw [told, effects, List.append_nil]
    | murmur n bytes =>
      have opened : ∃ o ∈ s.openings, o.epoch = n := before.admits admits'
      obtain ⟨later, effects⟩ :=
        before.murmur reached opened (still fits.1 opened) (waits n) fits.2
      refine ⟨⟨plays', trivial⟩, later, ?_⟩
      show t.past ++ (t.link.step (.data n bytes)).effects = _ ++ []
      rw [told, effects]
    | aside n bytes notice =>
      have opened : ∃ o ∈ s.openings, o.epoch = n := before.admits admits'
      obtain ⟨later, effects⟩ :=
        before.aside reached role opened (still fits.1 opened) (waits n) fits.2
      refine ⟨⟨plays', trivial⟩, later, ?_⟩
      show t.past ++ (t.link.step (.data n bytes)).effects = _ ++ (_ ++ [])
      rw [told, effects, List.append_nil]

end

/-- **Pushes disturb nothing and are heard once.**  Take any run on a link for subscriptions in
which pushes stand between the replies, whatever their pieces and however the bytes are cut.  The
run without them can happen too.  It leads to the same link but for bytes of a push that is half
said, with the same effects but for what is delivered; and whoever has subscribed a push when it is
said hears it then, once, if its socket is in use. -/
theorem run_eq_run_of_woven (config : Config) (cues : List Cue) (woven : Woven cues)
    (bare full : List Event) (cut : joined bare = joined (cues.filterMap Cue.event?))
    (cut' : joined full = joined (cues.map Cue.heard)) (plays : (start .pubsub config).Plays full) :
    let s := (start .pubsub config).run bare
    let t := (start .pubsub config).run full
    (start .pubsub config).Plays bare ∧
      t.link = { s.link with parser := t.link.parser } ∧ t.calls = s.calls ∧
      (half s.link.epoch cues = [] → t.link = s.link) ∧
      t.past.filter (fun x => !x.isDelivered) = s.past.filter (fun x => !x.isDelivered) ∧
      t.past = (start .pubsub config).told cues := by
  intro s t
  have begun : (start .pubsub config).Reached := reached_start .pubsub config
  obtain ⟨plays', run'⟩ := begun.recut cut' plays
  obtain ⟨before, beside, told⟩ := alongside config woven plays'
  obtain ⟨before', run⟩ := begun.recut cut.symm before
  rw [run, ← run'] at beside
  rw [← run'] at told
  have reached : s.Reached := ⟨_, _, _, before', rfl⟩
  exact ⟨before', beside.link, beside.calls, fun said => beside.same reached fun _ => said,
    beside.rest, told⟩

/-- a push in two pieces with a command in between, while the password is checked; and one that
nobody has subscribed, in one chunk with the replies around it -/
theorem run_eq_run_of_woven_in_handshake :
    let config := { Config.default with password := some "secret" }
    let request := (Call.subscribe ["news"]).request
    let subscribe := (Command.ofRequest 1 request .utf8).changing
      (.subscribe .channel [("news", "redis-link.news")])
    let ping := Command.ofRequest 2 (Request.ofVerb "PING") .utf8
    let front := Utf8.encode "*3\r\n$7\r\nmess"
    let back := Utf8.encode "age\r\n$4\r\nnews\r\n$2\r\nhi\r\n"
    let other := Utf8.encode "*3\r\n$7\r\nmessage\r\n$4\r\nelse\r\n$2\r\nho\r\n"
    let ok := Utf8.encode "+OK\r\n"
    let done := Utf8.encode "*3\r\n$9\r\nsubscribe\r\n$4\r\nnews\r\n:1\r\n"
    let hi := Notice.message (.bulk (Utf8.encode "news")) (.bulk (Utf8.encode "hi"))
    let ho := Notice.message (.bulk (Utf8.encode "else")) (.bulk (Utf8.encode "ho"))
    let cues := [.event (.send subscribe), .event (.attached 1 (.fresh 7) none), .murmur 1 front,
      .event (.send ping), .aside 1 back hi, .event (.data 1 ok), .aside 1 other ho,
      .event (.data 1 done)]
    let bare := [.send subscribe, .attached 1 (.fresh 7) none, .send ping, .data 1 (ok ++ done)]
    let full := [.send subscribe, .attached 1 (.fresh 7) none, .data 1 front, .send ping,
      .data 1 (back ++ ok), .data 1 (other ++ done)]
    Woven cues ∧ joined bare = joined (cues.filterMap Cue.event?) ∧
      joined full = joined (cues.map Cue.heard) ∧ (start .pubsub config).Plays full ∧
      ((start .pubsub config).run full).link = ((start .pubsub config).run bare).link ∧
      ((start .pubsub config).run full).past.countP Effect.isDelivered = 1 ∧
      ((start .pubsub config).run bare).past.countP Effect.isDelivered = 0 := by
  intro config request subscribe ping front back other ok done hi ho cues bare full
  have woven : Woven cues := by decide +kernel
  have cut : joined bare = joined (cues.filterMap Cue.event?) := by decide +kernel
  have cut' : joined full = joined (cues.map Cue.heard) := by decide +kernel
  have plays : (start .pubsub config).Plays full := by decide +kernel
  obtain ⟨_, _, _, same, _⟩ := run_eq_run_of_woven config cues woven bare full cut cut' plays
  exact ⟨woven, cut, cut', plays, same (by decide +kernel), by decide +kernel, by decide +kernel⟩

end Scene
end RespLink
