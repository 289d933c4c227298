import RespLink.Proofs.Accounts
import Mathlib.Data.List.Pairwise

/-!
# Wire order

Commands go out in the order in which they were submitted, over one socket after another, and each
of them once at most.  When a socket is lost, the commands that it carried and that are not answered
in full are failed on the spot, and none of them goes out again.

* `Effect.posted?`   the command that is written, with its frame;
* `Orders`           what is written and what is still pending keep the order of what came in;
* `Forsaken`         the commands of a sitting that are not answered in full are failed, in order;
* `tracks_left`      a sitting is forsaken as soon as its link is not connected any more;
* `Posts`            what a sitting writes of the commands that were submitted;
* `wire_order`       all of this for every run.
-/

namespace RespLink

/-- a command as it was submitted, and the frame for it -/
def Command.posted (c : Command) : Command × Bytes := (c.bare, c.frame)

def Effect.posted? : Effect → Option (Command × Bytes)
  | wrote _ (.command c) frame => some (c.bare, frame)
  | _ => none

/-- the commands that are written on the socket of a sitting, in order, each with its frame -/
def Sitting.posted (x : Sitting) : List (Command × Bytes) := x.effects.filterMap Effect.posted?

theorem map_posted_of_map_bare {cs cs' : List Command}
    (h : cs.map Command.bare = cs'.map Command.bare) :
    cs.map Command.posted = cs'.map Command.posted := by
  have e := congrArg (List.map fun c => (c, c.frame)) h
  rw [List.map_map, List.map_map] at e
  exact e

namespace Link

/-! ## order -/

/-- what is written, then what is pending, in the order in which it was pending or came in -/
def Orders (l : Link) (ins : List Intake) (es : List Effect) (m : Link) : Prop :=
  (es.filterMap Effect.posted? ++ m.pending.map Command.posted).Sublist
    (l.pending.map Command.posted ++ (ins.filterMap Intake.command?).map Command.posted)

section
variable {l m n : Link} {ins ins' : List Intake} {es es' : List Effect}
  {steps : List (Handshake × Bytes)}

theorem Orders.trans (a : Orders l ins es m) (b : Orders m ins' es' n) :
    Orders l (ins ++ ins') (es ++ es') n := by
  have later : ((es.filterMap Effect.posted? ++ es'.filterMap Effect.posted?) ++
      n.pending.map Command.posted).Sublist ((es.filterMap Effect.posted? ++
        m.pending.map Command.posted) ++ (ins'.filterMap Intake.command?).map Command.posted) := by
    rw [List.append_assoc, List.append_assoc]
    exact List.Sublist.append_left b _
  have front := List.Sublist.append_right a ((ins'.filterMap Intake.command?).map Command.posted)
  have same : l.pending.map Command.posted ++
      ((ins ++ ins').filterMap Intake.command?).map Command.posted =
        l.pending.map Command.posted ++ (ins.filterMap Intake.command?).map Command.posted ++
          (ins'.filterMap Intake.command?).map Command.posted := by
    rw [List.filterMap_append, List.map_append, List.append_assoc]
  rw [Orders, List.filterMap_append, same]
  exact later.trans front

/-- nothing is written, and what is pending stays or goes -/
theorem Orders.of_silent (silent : es.filterMap Effect.posted? = [])
    (pending : m.pending.Sublist l.pending) : Orders l ins es m := by
  rw [Orders, silent, List.nil_append]
  exact (pending.map _).trans (List.sublist_append_left _ _)

theorem overlooks_posted : Overlooks Effect.posted? :=
  ⟨fun _ _ => rfl, fun _ => rfl, fun _ => rfl⟩

theorem Onward.silent (h : Onward steps l es m) : es.filterMap Effect.posted? = [] := by
  cases h <;> rfl

theorem Move.orders (h : Move l ins es m) : Orders l ins es m := by
  cases h with
  | refuse | rest | pass | balk | hear | drop | take | finish | spoil =>
    exact .of_silent rfl (List.Sublist.refl _)
  | keep c registry running =>
    show ((l.pending ++ [c]).map Command.posted).Sublist _
    rw [List.map_append]
    exact List.Sublist.refl _
  | dial phase free =>
    rw [connect, if_pos phase]
    exact .of_silent rfl (List.Sublist.refl _)
  | attach socket sentinel? err phase onward =>
    refine .of_silent ?_ ?_
    · rw [List.filterMap_cons_none rfl, List.filterMap_append,
        filterMap_failures overlooks_posted.failed, onward.silent, List.append_nil]
    · rw [onward.pending]
      exact List.Sublist.refl l.pending
  | advance h rest reply s plain phase held front passes onward =>
    refine .of_silent ?_ ?_
    · rw [List.filterMap_cons_none rfl, onward.silent]
    · rw [onward.pending]
  | dispatch c rest s phase held front =>
    show (c.posted :: rest.map Command.posted).Sublist (l.pending.map Command.posted ++ [])
    rw [front, List.append_nil]
    exact List.Sublist.refl _
  | lose err retry active =>
    refine .of_silent (overlooks_posted.fail active err retry) ?_
    rw [fail_of_active active]
    exact List.nil_sublist _
  | push reply es known mails =>
    exact .of_silent (filterMap_mails (fun _ _ => rfl) mails) (List.Sublist.refl _)
  | part c rest reply err =>
    refine .of_silent ?_ (List.nil_sublist _)
    rw [List.filterMap_cons_none rfl, List.filterMap_append, overlooks_posted.teardown]
    rfl
  | stop => exact .of_silent (overlooks_posted.shutdown l) (List.nil_sublist _)

theorem Moves.orders (h : Moves l ins es m) : Orders l ins es m := by
  induction h with
  | none => exact .of_silent rfl (List.Sublist.refl _)
  | more _ last ih => exact ih.trans last.orders

/-! ## sockets that are lost -/

/-- the commands that were written and are not answered in full are failed, in order -/
def Forsaken (x : Sitting) : Prop :=
  ∃ err, failures err (outstanding x.books.written x.books.taken) <:+: x.effects

theorem Forsaken.of_unwritten {x : Sitting} (none : x.books.written = []) : Forsaken x := by
  refine ⟨.timeout, [], x.effects, ?_⟩
  rw [none]
  rfl

/-- later effects that the books do not see change nothing -/
theorem Forsaken.extend {x : Sitting} (h : Forsaken x)
    (written : (x.extend es).books.written = x.books.written)
    (taken : (x.extend es).books.taken = x.books.taken) : Forsaken (x.extend es) := by
  obtain ⟨err, failed⟩ := h
  refine ⟨err, ?_⟩
  rw [written, taken]
  exact failed.trans (List.prefix_append x.effects es).isInfix

/-- what waits is failed with the link -/
theorem Forsaken.of_failures {x : Sitting} {err : Error}
    (waiting : l.waiting =
      (outstanding (x.extend es).books.written (x.extend es).books.taken).map .command)
    (failed : failures err (l.waitingCommands ++ l.pending) <:+: es) : Forsaken (x.extend es) := by
  have commands : l.waitingCommands =
      outstanding (x.extend es).books.written (x.extend es).books.taken := by
    rw [waitingCommands, waiting, List.filterMap_map]
    exact List.filterMap_some
  have first : failures err l.waitingCommands <+: failures err (l.waitingCommands ++ l.pending) := by
    rw [failures, failures, List.map_append]
    exact List.prefix_append _ _
  refine ⟨err, ?_⟩
  rw [← commands]
  exact (first.isInfix.trans failed).trans (List.suffix_append x.effects es).isInfix

theorem failures_teardown (err : Error) (l : Link) :
    failures err (l.waitingCommands ++ l.pending) <:+: (l.teardown err).effects := by
  rw [teardown_effects]
  exact (List.prefix_append _ _).isInfix

theorem failures_shutdown (l : Link) :
    failures (.connection "Connection dropped") (l.waitingCommands ++ l.pending)
      <:+: l.shutdown.effects := by
  rw [shutdown_effects]
  exact (List.prefix_append _ _).isInfix

/-- the books are in order, and the sitting is over when the link is not connected any more -/
structure Left (x : Sitting) (l : Link) : Prop where
  booked : Booked x l
  forsaken : l.phase ≠ .connected → Forsaken x

theorem Left.move {x : Sitting} (h : Left x l) (move : Move l ins es m)
    (calm : ∀ e ∈ es, e.opening? = none) (booked : Booked (x.extend es) m)
    (apart : m.phase ≠ .connected) : Forsaken (x.extend es) := by
  -- a link that was not connected before: nothing is written, nothing is taken
  have before (early : Early l) (forsaken : Forsaken x) : Forsaken (x.extend es) := by
    obtain ⟨none | ⟨reply, rfl⟩, _⟩ := early.move move calm
    · exact forsaken.extend (by rw [books_extend_of_empty none]) (by rw [books_extend_of_empty none])
    · exact forsaken.extend (by rw [books_extend_of_drop]) (by rw [books_extend_of_drop])
  cases h.booked.serves with
  | early early written taken => exact before early (.of_unwritten written)
  | lost mute released => exact before mute.early (h.forsaken mute.phase)
  | serving held phase waiting =>
    have active : l.phase.isActive = true := by rw [phase]; rfl
    cases move with
    | lose err retry =>
      have same := books_extend_of_empty (x := x) (books_fail active err retry)
      have torn : (l.teardown err).effects <+: (l.fail err retry).effects := by
        rw [fail_of_active active]
        exact List.prefix_append _ _
      refine .of_failures ?_ ((failures_teardown err l).trans torn.isInfix)
      rw [same]
      exact waiting
    | part c rest reply err plain _ front last =>
      obtain ⟨cs, first, rfl⟩ := outstanding_of_front waiting front
      have torn : (teardown err { l with waiting := cs.map .command }).effects <:+:
          .met (some (.command c)) reply ::
            ((teardown err { l with waiting := cs.map .command }).effects
              ++ [.resolved c.ticket (c.accept reply).result]) :=
        (List.prefix_append _ _).isInfix.trans (List.suffix_cons _ _).isInfix
      refine .of_failures (l := { l with waiting := cs.map .command }) ?_
        ((failures_teardown err _).trans torn)
      rw [books_extend, books_part]
      show cs.map Waiter.command = (outstanding (x.books.written ++ [])
        (x.books.taken ++ [reply])).map Waiter.command
      rw [List.append_nil, outstanding_take h.booked.fresh first, if_pos last]
    | stop =>
      have same := books_extend_of_empty (x := x) (books_shutdown l)
      exact .of_failures (by rw [same]; exact waiting) (failures_shutdown l)
    | attach => cases calm _ List.mem_cons_self
    | dial phase' => rw [phase] at phase'; cases phase'
    | advance _ _ _ _ _ phase' => rw [phase] at phase'; cases phase'
    | _ => exact absurd phase apart

theorem tracks_left : Tracks (fun i => ∀ c, i = .command c → c.Fresh) Left where
  extend := by
    intro x l m ins es h move fits calm
    have booked := tracks_booked.extend h.booked move fits calm
    exact ⟨booked, h.move move calm booked⟩
  attach := by
    intro x l m es h socket sentinel? err phase onward
    have unwritten : (books (failures err l.waitingCommands ++ es)).written = [] := by
      rw [books_append, books_failures, onward.books]
      rfl
    exact ⟨tracks_booked.attach h.booked socket sentinel? err phase onward,
      fun _ => .of_unwritten unwritten⟩

theorem left_start (role : Role) (config : Config) : Left ⟨none, []⟩ (start role config) where
  booked := .of_empty rfl (fun _ hc => nomatch hc) (.inl ⟨.inl rfl, fun h => nomatch h⟩)
  forsaken _ := .of_unwritten rfl

/-- a command with an open slot is failed with its sitting -/
theorem failed_of_forsaken {x : Sitting} (h : Forsaken x) {i : Nat} {c : Command}
    (written : x.books.written[i]? = some c)
    (short : x.books.taken.length < slots (x.books.written.take i) + c.expected) :
    ∃ err, .failed c.ticket err ∈ x.effects := by
  obtain ⟨err, failed⟩ := h
  obtain ⟨c', waits, same⟩ := exists_outstanding written short
  refine ⟨err, failed.subset ?_⟩
  rw [← same]
  exact List.mem_map_of_mem waits

/-! ## runs -/

/-- what a sitting writes of the commands that were submitted -/
structure Posts (config : Config) (submitted : List Command) (x : Sitting) : Prop where
  /-- all frames go out on the socket of the sitting -/
  own : OnSocket x
  /-- commands follow the handshake -/
  opened : x.posted ≠ [] → ∃ o, x.opening? = some o ∧
    Opened (config.greeting o.sentinel?) x.exchanges
  /-- each command goes out in its own frame -/
  frames : x.posted = x.books.written.map Command.posted
  /-- distinct commands, in the order in which they were submitted -/
  order : x.posted.Sublist (submitted.map Command.posted)

theorem Guarded.opened {config : Config} {x : Sitting} (h : Guarded config x l) {socket : Nat}
    {c : Command} {frame : Bytes} (written : .wrote socket (.command c) frame ∈ x.effects) :
    ∃ o, x.opening? = some o ∧ Opened (config.greeting o.sentinel?) x.exchanges := by
  have sent : .sent (.command c) frame ∈ x.exchanges := List.mem_filterMap.mpr ⟨_, written, rfl⟩
  have gated := h.stands.gated
  rw [Gated] at gated
  cases opening : x.opening? with
  | none =>
    rw [opening] at gated
    cases gated _ sent
  | some o =>
    rw [opening] at gated
    exact ⟨o, rfl, Gate.opened_of_command gated sent⟩

theorem Guarded.frames {config : Config} {x : Sitting} (h : Guarded config x l) :
    x.posted = x.books.written.map Command.posted := by
  show x.effects.filterMap Effect.posted? = (x.effects.filterMap Effect.command?).map _
  rw [List.map_filterMap]
  refine List.filterMap_congr fun e he => ?_
  cases e with
  | wrote socket w frame =>
    cases w with
    | handshake => rfl
    | command c =>
      obtain ⟨o, _, opened⟩ := h.opened he
      have own := opened.own_frame (List.mem_filterMap.mpr ⟨_, he, rfl⟩)
      rw [own]
      rfl
  | _ => rfl

theorem Guarded.posts {config : Config} {submitted : List Command} {x : Sitting}
    (h : Guarded config x l) (order : x.posted.Sublist (submitted.map Command.posted)) :
    Posts config submitted x where
  own := h.own
  opened some := by
    obtain ⟨p, hp⟩ := List.exists_mem_of_ne_nil _ some
    obtain ⟨e, he, posted⟩ := List.mem_filterMap.mp hp
    obtain ⟨socket, c, frame, rfl⟩ : ∃ socket c frame, e = .wrote socket (.command c) frame := by
      cases e with
      | wrote socket w frame =>
        cases w with
        | handshake => cases posted
        | command c => exact ⟨socket, c, frame, rfl⟩
      | _ => cases posted
    exact h.opened he
  frames := h.frames
  order := order

/-- what is seen once is seen in one place -/
theorem eq_of_nodup_filterMap {α β : Type} {f : α → Option β} {xs : List α}
    (once : (xs.filterMap f).Nodup) {a b : α} {t : β} (ha : a ∈ xs) (hb : b ∈ xs)
    (seen : f a = some t) (seen' : f b = some t) : a = b := by
  by_contra apart
  have symm : Std.Symm fun x y : α => ∀ t, f x = some t → ∀ t', f y = some t' → t ≠ t' :=
    ⟨fun x y h t ht t' ht' same => h t' ht' t ht same.symm⟩
  exact (List.pairwise_filterMap.mp once).forall ha hb apart t seen t seen' rfl

/-- a ticket that is done with is so by one effect, if each is done with once -/
theorem eq_of_ended {a b : Effect} {t : Ticket} (once : (es.filterMap Effect.ended?).Nodup)
    (ha : a ∈ es) (hb : b ∈ es) (done : a.ended? = some t) (done' : b.ended? = some t) : a = b :=
  eq_of_nodup_filterMap once ha hb done done'

section
variable (role : Role) (config : Config) (events : List Event)

theorem posted_of_run :
    ((run events (start role config)).effects.filterMap Effect.posted?).Sublist
      ((events.filterMap (Event.command? config.encoding)).map Command.posted) := by
  obtain ⟨ins, ⟨moves, _⟩, entered⟩ := run_leads (settled_start role config) events
  have orders : ((run events (start role config)).effects.filterMap Effect.posted? ++
      (run events (start role config)).link.pending.map Command.posted).Sublist
        ((ins.filterMap Intake.command?).map Command.posted) := moves.orders
  rw [map_posted_of_map_bare (bare_of_enters entered)] at orders
  exact (List.sublist_append_left _ _).trans orders

/-- no ticket is done with twice -/
theorem ended_of_run
    (distinct : ((events.filterMap (Event.command? config.encoding)).map Command.ticket).Nodup) :
    ((run events (start role config)).effects.filterMap Effect.ended?).Nodup := by
  obtain ⟨ins, ⟨moves, _⟩, entered⟩ := run_leads (settled_start role config) events
  have each := moves.conserves.tickets
  rw [map_ticket_of_map_bare (bare_of_enters entered)] at each
  exact (List.nodup_append.mp (each.nodup_iff.mpr distinct)).1

theorem guarded_of_run {x : Sitting}
    (hx : x ∈ (Sittings.of (run events (start role config)).effects).all) :
    ∃ k, Guarded config x k := by
  obtain ⟨ins, ⟨moves, _⟩, _⟩ := run_leads (settled_start role config) events
  have before : Tracked (Guarded config) ⟨⟨none, []⟩, []⟩ (start role config) :=
    ⟨guarded_start role config, fun x hx => nomatch hx⟩
  exact (moves.tracks (tracks_guarded config) (fun _ _ => trivial) before).exists hx

/-- every sitting is forsaken once its socket is lost -/
theorem forsaken_of_run
    (fresh : ∀ c ∈ events.filterMap (Event.command? config.encoding), c.Fresh) {x : Sitting}
    (hx : x ∈ (Sittings.of (run events (start role config)).effects).all)
    (lost : x ∈ (Sittings.of (run events (start role config)).effects).past ∨
      (run events (start role config)).link.held? = none) : Forsaken x := by
  obtain ⟨ins, ⟨moves, settled⟩, entered⟩ := run_leads (settled_start role config) events
  have fits : ∀ i ∈ ins, ∀ c, i = .command c → c.Fresh := fun i hi c hc =>
    Command.fresh_of_entered entered fresh c (List.mem_filterMap.mpr ⟨i, hi, by rw [hc]; rfl⟩)
  have before : Tracked Left ⟨⟨none, []⟩, []⟩ (start role config) :=
    ⟨left_start role config, fun x hx => nomatch hx⟩
  have earlier : ∀ x ∈ (Sittings.of (run events (start role config)).effects).past, Forsaken x :=
    moves.closes tracks_left
      (fun x k left connecting => left.forsaken (by rw [connecting]; exact fun h => nomatch h))
      fits before fun x hx => nomatch hx
  rcases List.mem_cons.mp hx with rfl | past
  · rcases lost with past | free
    · exact earlier _ past
    · refine (moves.tracks tracks_left fits before).1.forsaken fun connected => ?_
      obtain ⟨_, ⟨socket, held⟩, _⟩ := settled.connected connected
      rw [held?, held] at free
      cases free
  · exact earlier x past

end

/-- **Commands go out once, in the order of submission, whatever happens to the sockets.**  In every
run the commands that are written on a socket follow its handshake, each in its own frame and in the
order of submission; so do those that are written on all sockets, one socket after another, and none
of them is written twice.  A command that is not answered in full when its socket is lost fails on
the spot, and never resolves. -/
theorem wire_order (role : Role) (config : Config) (events : List Event) :
    let submitted := events.filterMap (Event.command? config.encoding)
    let t := run events (start role config)
    let s := Sittings.of t.effects
    (∀ x ∈ s.all, Posts config submitted x) ∧
    (s.all.reverse.flatMap Sitting.posted = t.effects.filterMap Effect.posted? ∧
      (t.effects.filterMap Effect.posted?).Sublist (submitted.map Command.posted)) ∧
    ((submitted.map Command.ticket).Nodup →
      ((t.effects.filterMap Effect.posted?).map fun p => p.1.ticket).Nodup) ∧
    ((∀ c ∈ submitted, c.Fresh) → ∀ x ∈ s.all, (x ∈ s.past ∨ t.link.held? = none) →
      ∀ i c, x.books.written[i]? = some c →
        x.books.taken.length < slots (x.books.written.take i) + c.expected →
        (∃ err, .failed c.ticket err ∈ x.effects) ∧
          ((submitted.map Command.ticket).Nodup → ∀ result, .resolved c.ticket result ∉ t.effects)) := by
  intro submitted t s
  have order := posted_of_run role config events
  have whole : s.all.reverse.flatMap Sitting.posted = t.effects.filterMap Effect.posted? :=
    Sittings.flatMap_all (fun _ _ _ => rfl) t.effects
  refine ⟨fun x hx => ?_, ⟨whole, order⟩, fun distinct => ?_,
    fun fresh x hx lost i c written short => ?_⟩
  · obtain ⟨k, guarded⟩ := guarded_of_run role config events hx
    refine guarded.posts (List.Sublist.trans ?_ order)
    rw [← whole, List.flatMap_def]
    exact List.sublist_flatten_of_mem (List.mem_map_of_mem (List.mem_reverse.mpr hx))
  · have tickets : (submitted.map Command.posted).map (fun p => p.1.ticket)
        = submitted.map Command.ticket := List.map_map
    rw [← tickets] at distinct
    exact distinct.sublist (order.map _)
  · have forsaken := forsaken_of_run role config events fresh hx lost
    obtain ⟨err, failed⟩ := failed_of_forsaken forsaken written short
    refine ⟨⟨err, failed⟩, fun distinct result resolved => ?_⟩
    have inRun : .failed c.ticket err ∈ t.effects := by
      have inWhole := Sittings.mem_whole.mpr ⟨x, hx, List.mem_append_right _ failed⟩
      rw [Sittings.whole_of] at inWhole
      exact inWhole
    cases eq_of_ended (ended_of_run role config events distinct) inRun resolved rfl rfl

/-- on the first socket the second frame cannot be written, and the next one is lost with one reply
of three -/
theorem wire_order_over_three_sockets :
    let ping (t : Ticket) := Command.ofRequest t (Request.ofVerb "PING") .utf8
    let two := (ping 3).expecting 2
    let cause : IoError := ⟨"BrokenPipe", "broken pipe"⟩
    let events := [.send (ping 1), .send (ping 2), .attached 1 ⟨7, some ⟨1, cause⟩, none⟩ none,
      .send two, .send (ping 4), .attached 3 (.fresh 8) none, .data 3 (Utf8.encode "+A\r\n"),
      .closed 3, .send (ping 5), .attached 5 (.fresh 9) none]
    let t := run events (start .command .default)
    t.effects.filterMap Effect.posted? =
        [(ping 1).posted, two.posted, (ping 4).posted, (ping 5).posted] ∧
      ((t.effects.filterMap Effect.posted?).map fun p => p.1.ticket).Nodup ∧
      (∃ x ∈ (Sittings.of t.effects).past, x.posted = [(ping 1).posted] ∧
        (∃ err, .failed 1 err ∈ x.effects) ∧ ∀ result, .resolved 1 result ∉ t.effects) ∧
      ∃ x ∈ (Sittings.of t.effects).past, x.posted = [two.posted, (ping 4).posted] ∧
        (∃ err, .failed 3 err ∈ x.effects) ∧ (∃ err, .failed 4 err ∈ x.effects) ∧
          ∀ result, .resolved 3 result ∉ t.effects := by
  intro ping two cause events t
  have fresh : ∀ c ∈ [ping 1, ping 2, two, ping 4, ping 5], c.Fresh := by
    simp only [List.forall_mem_cons]
    exact ⟨Command.fresh_ofRequest _ _ _, Command.fresh_ofRequest _ _ _,
      (Command.fresh_ofRequest _ _ _).expecting 2, Command.fresh_ofRequest _ _ _,
      Command.fresh_ofRequest _ _ _, fun _ hc => nomatch hc⟩
  have distinct : ([ping 1, ping 2, two, ping 4, ping 5].map Command.ticket).Nodup := by decide
  obtain ⟨posts, _, once, lost⟩ := wire_order .command .default events
  obtain ⟨x, past, written, taken⟩ : ∃ x ∈ (Sittings.of t.effects).past,
      x.books.written = [ping 1] ∧ x.books.taken.length = 0 := by decide +kernel
  obtain ⟨y, past', written', taken'⟩ : ∃ x ∈ (Sittings.of t.effects).past,
      x.books.written = [two, ping 4] ∧ x.books.taken.length = 1 := by decide +kernel
  have member : x ∈ (Sittings.of t.effects).all := List.mem_cons_of_mem _ past
  have member' : y ∈ (Sittings.of t.effects).all := List.mem_cons_of_mem _ past'
  have cut := lost fresh x member (.inl past)
  have failed := lost fresh y member' (.inl past')
  rw [written, taken] at cut
  rw [written', taken'] at failed
  have only := cut 0 (ping 1) rfl (by decide)
  have first := failed 0 two rfl (by decide)
  have second := failed 1 (ping 4) rfl (by decide)
  refine ⟨by decide +kernel, once distinct, ⟨x, past, ?_, only.1, only.2 distinct⟩,
    y, past', ?_, first.1, second.1, first.2 distinct⟩
  · rw [(posts x member).frames, written]
    rfl
  · rw [(posts y member').frames, written']
    rfl

end
end Link
end RespLink
