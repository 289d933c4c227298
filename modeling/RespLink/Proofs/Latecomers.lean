import RespLink.Proofs.Failures
import RespLink.Proofs.Hearing

/-!
# Reports that come too late

What is read from a socket waits its turn, and may be met when the socket is gone or another one is
in use.  Every report carries the epoch that its reader was started in, and that is enough: a run
with such latecomers is the run without them.

* `Event.reader?`    the epoch that a report of a socket carries;
* `Scene.inUse?`     the socket in use, as it came into use;
* `Scene.overdue`    a report of another socket than that one;
* `Scene.timely`     the events that are left when all latecomers are struck out;
* `Rises`            attempts start in later and later epochs; it is kept by every move;
* `Dated`            attempts and sockets against epochs; it is kept by every event that can happen;
* `run_timely_eq_run`   every play leads where it leads without its latecomers.
-/

namespace RespLink

/-- the epoch in which the reader was started that reports this -/
def Event.reader? : Event → Option Nat
  | data epoch _ | closed epoch | readFailed epoch _ => some epoch
  | _ => none

namespace Scene

/-- the socket in use: the last one that came into use, while the link holds a socket -/
def inUse? (s : Scene) : Option Opening :=
  if s.link.socket?.isSome then s.openings.getLast? else none

/-- what is read from a socket that is not the one in use -/
def overdue (s : Scene) (e : Event) : Bool :=
  match e.reader? with
  | some epoch => decide (s.inUse?.map Opening.epoch ≠ some epoch)
  | none => false

/-- the events that are left when all that are overdue are struck out -/
def timely : Scene → List Event → List Event
  | _, [] => []
  | s, e :: rest => if s.overdue e then timely (s.next e) rest else e :: timely (s.next e) rest

/-- the epochs of all connect attempts so far, in order -/
def dialled (s : Scene) : List Nat := s.past.filterMap Effect.call?

end Scene

namespace Link

/-! ## attempts and epochs -/

/-- attempts start in epochs after that of the first link, one after another, and none after that of
the last -/
structure Rises (l : Link) (es : List Effect) (m : Link) : Prop where
  epoch : l.epoch ≤ m.epoch
  after : ∀ n ∈ es.filterMap Effect.call?, l.epoch < n
  upTo : ∀ n ∈ es.filterMap Effect.call?, n ≤ m.epoch
  rising : (es.filterMap Effect.call?).Pairwise (· < ·)

section
variable {l m n : Link} {ins : List Intake} {es es' : List Effect}
  {steps : List (Handshake × Bytes)}

theorem overlooks_call : Overlooks Effect.call? := ⟨fun _ _ => rfl, fun _ => rfl, fun _ => rfl⟩

/-- no attempt starts -/
theorem Rises.of_silent (silent : es.filterMap Effect.call? = []) (epoch : l.epoch ≤ m.epoch) :
    Rises l es m := by
  refine ⟨epoch, ?_, ?_, ?_⟩
  · rw [silent]; exact fun _ hn => nomatch hn
  · rw [silent]; exact fun _ hn => nomatch hn
  · rw [silent]; exact List.Pairwise.nil

theorem Rises.trans (a : Rises l es m) (b : Rises m es' n) : Rises l (es ++ es') n where
  epoch := Nat.le_trans a.epoch b.epoch
  after k hk := by
    rw [List.filterMap_append] at hk
    rcases List.mem_append.mp hk with early | late
    · exact a.after k early
    · exact Nat.lt_of_le_of_lt a.epoch (b.after k late)
  upTo k hk := by
    rw [List.filterMap_append] at hk
    rcases List.mem_append.mp hk with early | late
    · exact Nat.le_trans (a.upTo k early) b.epoch
    · exact b.upTo k late
  rising := by
    rw [List.filterMap_append, List.pairwise_append]
    exact ⟨a.rising, b.rising, fun j hj k hk => Nat.lt_of_le_of_lt (a.upTo j hj) (b.after k hk)⟩

theorem Onward.rises (h : Onward steps l es m) : Rises l es m := by
  cases h <;> exact .of_silent rfl (Nat.le_refl _)

theorem Move.rises (h : Move l ins es m) : Rises l es m := by
  cases h with
  | refuse | rest | keep | pass | balk | hear | drop | take | finish | dispatch | spoil =>
    exact .of_silent rfl (Nat.le_refl _)
  | dial phase free =>
    rw [connect, if_pos phase]
    refine ⟨Nat.le_succ _, fun k hk => ?_, fun k hk => ?_, List.pairwise_singleton _ _⟩
    · rw [List.mem_singleton.mp hk]
      exact Nat.lt_succ_self _
    · exact Nat.le_of_eq (List.mem_singleton.mp hk)
  | attach socket sentinel? err phase onward =>
    have later := onward.rises
    refine ⟨later.epoch, ?_, ?_, ?_⟩ <;>
      rw [List.filterMap_cons_none rfl, List.filterMap_append,
        filterMap_failures overlooks_call.failed, List.nil_append]
    · exact later.after
    · exact later.upTo
    · exact later.rising
  | advance h rest reply s plain phase held front passes onward =>
    have later := onward.rises
    refine ⟨later.epoch, ?_, ?_, ?_⟩ <;> rw [List.filterMap_cons_none rfl]
    · exact later.after
    · exact later.upTo
    · exact later.rising
  | lose err retry active =>
    refine .of_silent (overlooks_call.fail active err retry) ?_
    rw [fail_of_active active]
    exact Nat.le_succ _
  | push reply es known mails =>
    exact .of_silent (filterMap_mails (fun _ _ => rfl) mails) (Nat.le_refl _)
  | part c rest reply err =>
    refine .of_silent ?_ (Nat.le_succ _)
    rw [List.filterMap_cons_none rfl, List.filterMap_append, overlooks_call.teardown]
    rfl
  | stop => exact .of_silent (overlooks_call.shutdown l) (Nat.le_succ _)

theorem Moves.rises (h : Moves l ins es m) : Rises l es m := by
  induction h with
  | none => exact .of_silent rfl (Nat.le_refl _)
  | more _ last ih => exact ih.trans last.rises

/-- a report of an epoch that is not the link's own is overlooked -/
theorem step_of_stale {e : Event} {epoch : Nat} (reader : e.reader? = some epoch)
    (stale : l.epoch ≠ epoch) : l.step e = .of l := by
  cases running : l.stopped with
  | true =>
    rw [step_of_stopped running]
    cases e <;> cases reader <;> rfl
  | false =>
    rw [step_of_running running]
    cases e <;> cases reader <;> exact if_neg stale

end
end Link

namespace Scene

/-! ## attempts and sockets -/

/-- attempts, sockets and what is reported, against epochs -/
structure Dated (s : Scene) : Prop where
  sound : s.link.stopped = false → s.Sound
  /-- a link that has stopped holds no socket -/
  ended : s.link.stopped = true → s.link.held? = none
  holds : s.Holds s.link.held?
  /-- each attempt starts in a later epoch -/
  rising : s.dialled.Pairwise (· < ·)
  upTo : ∀ n ∈ s.dialled, n ≤ s.link.epoch
  calls : ∀ n ∈ s.calls, n ∈ s.dialled
  /-- a socket has the epoch of its attempt -/
  opened : ∀ o ∈ s.openings, o.epoch ∈ s.dialled

section
variable {s : Scene} {e : Event}

theorem dated_start (role : Role) (config : Config) : (start role config).Dated where
  sound _ := sound_start role config
  ended h := nomatch h
  holds := fun _ ho => nomatch ho
  rising := List.Pairwise.nil
  upTo _ hn := nomatch hn
  calls _ hn := nomatch hn
  opened _ ho := nomatch ho

theorem dialled_next (s : Scene) (e : Event) :
    (s.next e).dialled = s.dialled ++ (s.link.step e).effects.filterMap Effect.call? :=
  List.filterMap_append

theorem mem_calls_next {n : Nat} (h : n ∈ (s.next e).calls) :
    n ∈ s.calls ∨ n ∈ (s.link.step e).effects.filterMap Effect.call? := by
  rcases List.mem_append.mp h with before | new
  · refine .inl ?_
    cases outcome : e.outcome? with
    | none =>
      rw [outcome] at before
      exact before
    | some epoch =>
      rw [outcome] at before
      exact List.mem_of_mem_erase before
  · exact .inr new

/-- only the outcome of an attempt brings a socket into use -/
theorem calm_of_no_socket (settled : s.link.Settled)
    (other : ∀ epoch socket sentinel?, e ≠ .attached epoch socket sentinel?) :
    ∀ e' ∈ (s.link.step e).effects, e'.opening? = none := by
  obtain ⟨ins, brings, moves, _⟩ := Link.step_leads settled e
  refine moves.openings fun n i member => ?_
  by_cases bytes : ∃ epoch chunk, e = .data epoch chunk
  · obtain ⟨epoch, chunk, rfl⟩ := bytes
    rcases brings with rfl | ⟨heard, _, rfl⟩
    · cases member
    · simp at member
  · exact (plain_of_brings brings other fun epoch chunk is => bytes ⟨epoch, chunk, is⟩).1 n i member

/-- nothing brings a socket into use on a link that has stopped -/
theorem calm_of_stopped (stopped : s.link.stopped = true) (e : Event) :
    ∀ e' ∈ (s.link.step e).effects, e'.opening? = none := by
  rw [Link.step_of_stopped stopped]
  cases e <;> simp [Link.stoppedStep, Link.failures, Turn.of, Effect.opening?]

/-- a socket comes into use, which the link has waited for, or none does -/
theorem Dated.opens_or_calm (dated : s.Dated) (settled : s.link.Settled) (admits : s.Admits e) :
    (∃ n i, e = .attached s.link.epoch n i ∧ s.link.stopped = false ∧
      s.link.phase = .connecting ∧ s.link.held? = none ∧ s.link.epoch ∈ s.calls) ∨
    ∀ e' ∈ (s.link.step e).effects, e'.opening? = none := by
  cases running : s.link.stopped with
  | true => exact .inr (calm_of_stopped running e)
  | false =>
    by_cases socket : ∃ epoch n i, e = .attached epoch n i
    · obtain ⟨epoch, n, i, rfl⟩ := socket
      have under : epoch ∈ s.calls := admits
      obtain ⟨rfl, phase, free, _⟩ := (dated.sound running).kept.current_of_call under
      exact .inl ⟨n, i, rfl, rfl, phase, free, under⟩
    · exact .inr (calm_of_no_socket settled fun epoch n i is => socket ⟨epoch, n, i, is⟩)

/-- the epoch of a socket that comes into use is that of an attempt under way -/
theorem Dated.opened_next (dated : s.Dated) (settled : s.link.Settled) (admits : s.Admits e) :
    ∀ o ∈ (s.next e).openings, o.epoch ∈ s.dialled := by
  rcases dated.opens_or_calm settled admits with ⟨n, i, rfl, running, phase, _, under⟩ | calm
  · obtain ⟨es, effects, calm, _⟩ := step_attached running phase n i
    rw [openings_next_of_attached effects calm]
    intro o ho
    rcases List.mem_append.mp ho with before | new
    · exact dated.opened o before
    · rw [List.mem_singleton.mp new]
      exact dated.calls _ under
  · rw [openings_next_of_calm calm]
    exact dated.opened

/-- nothing of a link that stops is left -/
theorem holds_shutdown (dated : s.Dated) (running : s.link.stopped = false) :
    (s.next .shutdown).link.held? = none ∧ (s.next .shutdown).Holds none := by
  have step : s.link.step .shutdown = s.link.shutdown := Link.step_of_running running _
  have epoch : (s.next .shutdown).link.epoch = s.link.epoch + 1 := by
    show (s.link.step .shutdown).link.epoch = _
    rw [step]
    rfl
  have calm := calm_of_no_socket (dated.sound running).settled (e := .shutdown) nofun
  refine ⟨?_, ?_⟩
  · show (s.link.step .shutdown).link.held? = none
    rw [step]
    rfl
  · rw [Holds, openings_next_of_calm calm, epoch]
    exact fun o ho => Nat.lt_succ_of_le (dated.holds.epoch_le o ho)

theorem Dated.next (dated : s.Dated) (settled : s.link.Settled) (admits : s.Admits e) :
    (s.next e).Dated := by
  have rises : s.link.Rises (s.link.step e).effects (s.next e).link := by
    obtain ⟨_, _, moves, _⟩ := Link.step_leads settled e
    exact moves.rises
  have sound (running : (s.next e).link.stopped = false) : (s.next e).Sound := by
    obtain ⟨before, lasting⟩ := @running_of_next s e [] running
    exact (dated.sound before).next before admits lasting
  have opened := dated.opened_next settled admits
  -- a link that is stopped now has stopped before, or does so with this event
  have stops (stopped : (s.next e).link.stopped = true) :
      (s.next e).link.held? = none ∧ (s.next e).Holds none := by
    cases running : s.link.stopped with
    | false =>
      by_cases last : e = .shutdown
      · subst last
        exact holds_shutdown dated running
      · have kept := ((dated.sound running).next running admits last).kept
        have free := (kept.clean ((dated.sound running).phase_of_stopped running admits stopped)).1
        have holds := kept.holds
        rw [free] at holds
        exact ⟨free, holds⟩
    | true =>
      have same : (s.next e).link = s.link := Link.run_of_stopped running [e]
      have free := dated.ended running
      have holds := dated.holds
      rw [free] at holds
      rw [Holds, same, openings_next_of_calm (calm_of_stopped running e)]
      exact ⟨free, holds⟩
  refine ⟨sound, fun stopped => (stops stopped).1, ?_, ?_, ?_, ?_, ?_⟩
  · cases stopped : (s.next e).link.stopped with
    | false => exact (sound stopped).kept.holds
    | true => rw [(stops stopped).1]; exact (stops stopped).2
  · rw [dialled_next, List.pairwise_append]
    exact ⟨dated.rising, rises.rising,
      fun j hj k hk => Nat.lt_of_le_of_lt (dated.upTo j hj) (rises.after k hk)⟩
  · intro n hn
    rw [dialled_next] at hn
    rcases List.mem_append.mp hn with before | new
    · exact Nat.le_trans (dated.upTo n before) rises.epoch
    · exact rises.upTo n new
  · intro n hn
    rw [dialled_next]
    rcases mem_calls_next hn with before | new
    · exact List.mem_append_left _ (dated.calls n before)
    · exact List.mem_append_right _ new
  · intro o ho
    rw [dialled_next]
    exact List.mem_append_left _ (opened o ho)

/-! ## the socket in use -/

theorem inUse?_of_free (free : s.link.held? = none) : s.inUse? = none := by
  have none : s.link.socket? = none := Option.map_eq_none_iff.mp free
  rw [inUse?, none]
  rfl

theorem inUse?_of_held {socket : Nat} (held : s.link.held? = some socket) :
    s.inUse? = s.openings.getLast? := by
  have some : s.link.socket?.isSome = true := by
    rw [← Option.isSome_map (f := Socket.number), show s.link.socket?.map _ = _ from held]
    rfl
  rw [inUse?, if_pos some]

theorem Dated.socket_inUse? (dated : s.Dated) :
    s.inUse?.map Opening.socket = s.link.held? := by
  have holds := dated.holds
  cases held : s.link.held? with
  | none =>
    rw [inUse?_of_free held]
    rfl
  | some socket =>
    rw [held] at holds
    obtain ⟨before, epoch, sentinel?, openings, _⟩ := holds
    rw [inUse?_of_held held, openings, List.getLast?_concat]
    rfl

theorem mem_of_inUse {o : Opening} (inUse : s.inUse? = some o) : o ∈ s.openings := by
  rw [inUse?] at inUse
  split at inUse
  · exact List.mem_of_getLast? inUse
  · cases inUse

/-- the link's own epoch is that of the socket in use, and of no other -/
theorem Dated.epoch_eq_iff (dated : s.Dated) {o : Opening} (ho : o ∈ s.openings) :
    o.epoch = s.link.epoch ↔ s.inUse? = some o := by
  have holds := dated.holds
  cases held : s.link.held? with
  | none =>
    rw [held] at holds
    rw [inUse?_of_free held]
    exact ⟨fun same => absurd same (Nat.ne_of_lt (holds o ho)), nofun⟩
  | some socket =>
    rw [held] at holds
    obtain ⟨before, epoch, sentinel?, openings, current, older⟩ := holds
    rw [inUse?_of_held held, openings, List.getLast?_concat]
    constructor
    · intro same
      rw [openings] at ho
      rcases List.mem_append.mp ho with early | last
      · exact absurd same (Nat.ne_of_lt (older o early))
      · rw [List.mem_singleton.mp last]
    · intro last
      rw [← Option.some.inj last]
      exact current

/-! ## latecomers -/

theorem next_of_idle (idle : s.link.step e = .of s.link) (none : e.outcome? = none) :
    s.next e = s := by
  rw [next, none, idle]
  show Scene.mk s.link (s.calls ++ []) (s.past ++ []) = s
  rw [List.append_nil, List.append_nil]

theorem next_of_stale {epoch : Nat} (reader : e.reader? = some epoch)
    (stale : s.link.epoch ≠ epoch) : s.next e = s := by
  refine next_of_idle (Link.step_of_stale reader stale) ?_
  cases e <;> cases reader <;> rfl

theorem opened_of_admits (admits : s.Admits e) {epoch : Nat} (reader : e.reader? = some epoch) :
    ∃ o ∈ s.openings, o.epoch = epoch := by
  cases e <;> cases reader <;> exact admits

theorem overdue_of_reader {epoch : Nat} (reader : e.reader? = some epoch) :
    s.overdue e = decide (s.inUse?.map Opening.epoch ≠ some epoch) := by
  rw [overdue, reader]

/-- **A report that comes too late changes nothing at all.** -/
theorem Dated.next_of_overdue (dated : s.Dated) (admits : s.Admits e)
    (late : s.overdue e = true) : s.next e = s := by
  cases reader : e.reader? with
  | none =>
    rw [overdue, reader] at late
    cases late
  | some epoch =>
    rw [overdue_of_reader reader] at late
    obtain ⟨o, ho, same⟩ := opened_of_admits admits reader
    refine next_of_stale reader fun current => of_decide_eq_true late ?_
    rw [(dated.epoch_eq_iff ho).mp (same.trans current.symm), Option.map_some, same]

theorem timely_of_overdue (late : s.overdue e = true) (rest : List Event) :
    s.timely (e :: rest) = (s.next e).timely rest := if_pos late

theorem timely_of_not_overdue (due : s.overdue e = false) (rest : List Event) :
    s.timely (e :: rest) = e :: (s.next e).timely rest := if_neg (by rw [due]; decide)

/-- what is kept in every play -/
theorem Dated.run {events : List Event} (dated : s.Dated) (settled : s.link.Settled)
    (plays : s.Plays events) : (s.run events).Dated := by
  induction events generalizing s with
  | nil => exact dated
  | cons e rest ih =>
    obtain ⟨_, _, _, settled'⟩ := Link.step_leads settled e
    exact ih (dated.next settled plays.1) settled' plays.2

/-- the events that are left can happen, and lead to the same scene -/
theorem Dated.run_timely {events : List Event} (dated : s.Dated) (settled : s.link.Settled)
    (plays : s.Plays events) :
    s.Plays (s.timely events) ∧ s.run (s.timely events) = s.run events := by
  induction events generalizing s with
  | nil => exact ⟨trivial, rfl⟩
  | cons e rest ih =>
    obtain ⟨_, _, _, settled'⟩ := Link.step_leads settled e
    have later := ih (dated.next settled plays.1) settled' plays.2
    cases late : s.overdue e with
    | false =>
      rw [timely_of_not_overdue late]
      exact ⟨⟨plays.1, later.1⟩, later.2⟩
    | true =>
      rw [timely_of_overdue late]
      show s.Plays _ ∧ s.run _ = (s.next e).run rest
      rw [dated.next_of_overdue plays.1 late] at later ⊢
      exact later

/-- and none of them comes too late -/
theorem Dated.due_of_timely {events before after : List Event} (dated : s.Dated)
    (settled : s.link.Settled) (plays : s.Plays events)
    (split : s.timely events = before ++ e :: after) : (s.run before).overdue e = false := by
  induction events generalizing s before with
  | nil => exact absurd split (by cases before <;> nofun)
  | cons e' rest ih =>
    obtain ⟨_, _, _, settled'⟩ := Link.step_leads settled e'
    have later (before : List Event) (split : (s.next e').timely rest = before ++ e :: after) :
        ((s.next e').run before).overdue e = false :=
      ih (dated.next settled plays.1) settled' plays.2 split
    cases late : s.overdue e' with
    | false =>
      rw [timely_of_not_overdue late] at split
      cases before with
      | nil =>
        rw [← (List.cons.inj split).1]
        exact late
      | cons first before =>
        obtain ⟨rfl, tail⟩ := List.cons.inj split
        exact later before tail
    | true =>
      rw [timely_of_overdue late] at split
      have same := dated.next_of_overdue plays.1 late
      rw [same] at later split
      exact later before split

end

/-- **Reports that come too late are harmless.**  In every play, and at every moment of it: without
all reports of sockets that are not in use any more the play is a play still, and it leads to the
same scene, with the same effects so far.  A socket has the link's own epoch exactly while it is in
use, attempts and sockets have epochs of their own, and the outcome of an attempt is always awaited
by the link. -/
theorem run_timely_eq_run (role : Role) (config : Config) (events : List Event)
    (plays : (start role config).Plays events) :
    let s := start role config
    let t := s.run events
    (∀ seen, seen <+: events →
      s.Plays (s.timely seen) ∧ s.run (s.timely seen) = s.run seen ∧
        ∀ before e after, s.timely seen = before ++ e :: after →
          (s.run before).overdue e = false) ∧
    (t.inUse?.map Opening.socket = t.link.held? ∧
      ∀ o ∈ t.openings, o.epoch = t.link.epoch ↔ t.inUse? = some o) ∧
    (t.dialled.Pairwise (· < ·) ∧ (t.openings.map Opening.epoch).Pairwise (· < ·) ∧
      ∀ o ∈ t.openings, o.epoch ∈ t.dialled) ∧
    (t.link.stopped = false →
      ∀ epoch ∈ t.calls, t.link.epoch = epoch ∧ t.link.phase = .connecting) := by
  intro s t
  have settled : s.link.Settled := Link.settled_start role config
  have begun : s.Dated := dated_start role config
  have dated : t.Dated := begun.run settled plays
  refine ⟨fun seen early => ?_, ⟨dated.socket_inUse?, fun o ho => dated.epoch_eq_iff ho⟩,
    ⟨dated.rising, (heard_of_plays role config plays).ordered, dated.opened⟩,
    fun running epoch under => ?_⟩
  · obtain ⟨later, rfl⟩ := early
    have plays := (plays_append.mp plays).1
    obtain ⟨still, same⟩ := begun.run_timely settled plays
    exact ⟨still, same, fun before e after => begun.due_of_timely settled plays⟩
  · obtain ⟨current, phase, _⟩ := (dated.sound running).kept.current_of_call under
    exact ⟨current, phase⟩

/-- a socket is lost, and what it still reports is met before, during and after the next attempt -/
theorem run_timely_eq_run_over_two_sockets :
    let ping (t : Ticket) := Command.ofRequest t (Request.ofVerb "PING") .utf8
    let old : Event := .data 1 (Utf8.encode "+OLD\r\n")
    let new : Event := .data 3 (Utf8.encode "+PONG\r\n")
    let events := [.send (ping 1), .attached 1 (.fresh 7) none, .closed 1, old, .send (ping 2),
      .closed 1, .attached 3 (.fresh 8) none, old, new, .readFailed 1 ⟨"Other", "gone"⟩]
    let s := start .command .default
    s.Plays events ∧
      s.timely events = [.send (ping 1), .attached 1 (.fresh 7) none, .closed 1, .send (ping 2),
        .attached 3 (.fresh 8) none, new] ∧
      s.run (s.timely events) = s.run events := by
  intro ping old new events s
  have plays : s.Plays events := by decide +kernel
  have all := (run_timely_eq_run .command .default events plays).1 events List.prefix_rfl
  exact ⟨plays, by decide +kernel, all.2.1⟩

end Scene
end RespLink
