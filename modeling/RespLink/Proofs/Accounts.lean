import RespLink.Proofs.Gate
import RespLink.Proofs.Ledger

/-!
# The account of a sitting

What a sitting notes of commands and replies is the ledger of the commands that it writes and the
replies that they take.  So each reply goes to the command in whose slots it falls, and each result
is made of the replies in its own slots.

* `Books`       what a list of effects says of commands: written, replies taken, the account of it,
                and the replies that nothing awaited;
* `DropsIdle`   a reply is dropped only when none is expected;
* `Serves`      the queue of the link against the books of its latest sitting;
* `Booked`      the books are in order;
* `Settlement`  what that says of each reply and each result;
* `replies_settled`   it holds of every sitting of every play.
-/

namespace RespLink

/-! ## books -/

namespace Effect

/-- a command is written -/
def command? : Effect → Option Command
  | wrote _ (.command c) _ => some c
  | _ => none

theorem wrote_of_command {e : Effect} {c : Command} (h : e.command? = some c) :
    ∃ socket frame, e = .wrote socket (.command c) frame := by
  cases e with
  | wrote socket w frame =>
    cases w with
    | command => cases h; exact ⟨socket, frame, rfl⟩
    | handshake => cases h
  | _ => cases h

/-- a reply is taken by a command -/
def taken? : Effect → Option Reply
  | met (some (.command _)) reply => some reply
  | _ => none

def entry? : Effect → Option Entry
  | met (some (.command c)) reply => some (.took c.ticket reply)
  | resolved t result => some (.gave t result)
  | _ => none

/-- a reply finds nothing that waits -/
def dropped? : Effect → Option Reply
  | met none reply => some reply
  | _ => none

end Effect

structure Books where
  /-- the commands that were written, in order -/
  written : List Command
  /-- the replies that commands took, in order -/
  taken : List Reply
  /-- who took which, and the results among them -/
  account : List Entry
  /-- the replies that nothing awaited -/
  dropped : List Reply

namespace Books

def empty : Books := ⟨[], [], [], []⟩

def append (a b : Books) : Books :=
  ⟨a.written ++ b.written, a.taken ++ b.taken, a.account ++ b.account, a.dropped ++ b.dropped⟩

theorem append_empty (a : Books) : a.append empty = a := by
  simp only [append, empty, List.append_nil]

end Books

def books (es : List Effect) : Books :=
  ⟨es.filterMap Effect.command?, es.filterMap Effect.taken?, es.filterMap Effect.entry?,
    es.filterMap Effect.dropped?⟩

def Sitting.books (x : Sitting) : Books := RespLink.books x.effects

theorem books_append (a b : List Effect) : books (a ++ b) = (books a).append (books b) := by
  simp only [books, Books.append, List.filterMap_append]

/-- a reply is dropped only when the socket is lost or all replies expected so far have come -/
def DropsIdle (es : List Effect) : Prop :=
  ∀ before reply after, es = before ++ .met none reply :: after →
    (∃ socket, .released socket ∈ before) ∨
      (books before).taken.length = slots (books before).written

theorem DropsIdle.append {es es' : List Effect} (h : DropsIdle es)
    (none : (books es').dropped = []) : DropsIdle (es ++ es') := by
  intro before reply after split
  rcases List.append_eq_append_iff.mp split with ⟨more, _, later⟩ | ⟨more, earlier, later⟩
  · have inside : reply ∈ (books es').dropped :=
      List.mem_filterMap.mpr ⟨.met .none reply, by rw [later]; simp, rfl⟩
    rw [none] at inside
    cases inside
  · cases more with
    | nil =>
      have inside : reply ∈ (books es').dropped :=
        List.mem_filterMap.mpr ⟨.met .none reply, by rw [← List.nil_append es', ← later]; simp, rfl⟩
      rw [none] at inside
      cases inside
    | cons e more =>
      cases later
      exact h before reply more earlier

theorem DropsIdle.drop {es : List Effect} (h : DropsIdle es)
    (idle : (∃ socket, .released socket ∈ es) ∨ (books es).taken.length = slots (books es).written)
    (reply : Reply) : DropsIdle (es ++ [.met none reply]) := by
  intro before reply' after split
  rcases List.append_eq_append_iff.mp split with ⟨more, rfl, later⟩ | ⟨more, earlier, later⟩
  · cases more with
    | nil =>
      rw [List.append_nil]
      exact idle
    | cons e more =>
      have size := congrArg List.length later
      simp at size
  · cases more with
    | nil =>
      rw [List.append_nil] at earlier
      exact earlier ▸ idle
    | cons e more =>
      cases later
      exact h before reply' more earlier

namespace Link
section
variable {l m : Link} {ins : List Intake} {es : List Effect} {steps : List (Handshake × Bytes)}

theorem overlooks_command : Overlooks Effect.command? :=
  ⟨fun _ _ => rfl, fun _ => rfl, fun _ => rfl⟩

theorem overlooks_taken : Overlooks Effect.taken? :=
  ⟨fun _ _ => rfl, fun _ => rfl, fun _ => rfl⟩

theorem overlooks_entry : Overlooks Effect.entry? :=
  ⟨fun _ _ => rfl, fun _ => rfl, fun _ => rfl⟩

theorem overlooks_dropped : Overlooks Effect.dropped? :=
  ⟨fun _ _ => rfl, fun _ => rfl, fun _ => rfl⟩

theorem books_failures (err : Error) (cs : List Command) : books (failures err cs) = .empty := by
  simp only [books, Books.empty, filterMap_failures overlooks_command.failed,
    filterMap_failures overlooks_taken.failed, filterMap_failures overlooks_entry.failed,
    filterMap_failures overlooks_dropped.failed]

theorem books_teardown (err : Error) (l : Link) : books (l.teardown err).effects = .empty := by
  simp only [books, Books.empty, overlooks_command.teardown, overlooks_taken.teardown,
    overlooks_entry.teardown, overlooks_dropped.teardown]

theorem books_fail (active : l.phase.isActive = true) (err : Error) (retry : Bool) :
    books (l.fail err retry).effects = .empty := by
  simp only [books, Books.empty, overlooks_command.fail active, overlooks_taken.fail active,
    overlooks_entry.fail active, overlooks_dropped.fail active]

theorem books_shutdown (l : Link) : books l.shutdown.effects = .empty := by
  simp only [books, Books.empty, overlooks_command.shutdown, overlooks_taken.shutdown,
    overlooks_entry.shutdown, overlooks_dropped.shutdown]

/-- the last reply of a command with which the link parts -/
theorem books_part (c : Command) (reply : Reply) (err : Error) (l : Link) :
    books (.met (some (.command c)) reply ::
        ((l.teardown err).effects ++ [.resolved c.ticket (c.accept reply).result])) =
      ⟨[], [reply], [.took c.ticket reply, .gave c.ticket (c.accept reply).result], []⟩ := by
  rw [← List.singleton_append, books_append, books_append, books_teardown]
  rfl

theorem books_mails (mails : ∀ e ∈ es, ∃ m p, e = Effect.delivered m p) : books es = .empty := by
  have none {α : Type} (f : Effect → Option α) (unseen : ∀ m p, f (.delivered m p) = none) :
      es.filterMap f = [] := filterMap_mails unseen mails
  simp only [books, Books.empty, none Effect.command? fun _ _ => rfl,
    none Effect.taken? fun _ _ => rfl, none Effect.entry? fun _ _ => rfl,
    none Effect.dropped? fun _ _ => rfl]

theorem Onward.books (h : Onward steps l es m) : books es = .empty := by
  cases h <;> rfl

/-! ## a link that is not connected -/

/-- no command waits on a link that is not connected -/
structure Early (l : Link) : Prop where
  waiting : l.waiting = [] ∨ ∃ h, l.waiting = [.handshake h]
  phase : l.phase ≠ .connected

theorem Mute.early (h : Mute l) : Early l := ⟨.inl h.waiting, h.phase⟩

/-- a step of the handshake waits alone -/
theorem Early.alone (h : Early l) {step : Handshake} {rest : List Waiter}
    (front : l.waiting = .handshake step :: rest) : rest = [] := by
  rcases h.waiting with none | ⟨step', one⟩
  · rw [none] at front
    cases front
  · rw [one] at front
    cases front
    rfl

theorem Early.front (h : Early l) {c : Command} {rest : List Waiter} :
    l.waiting ≠ .command c :: rest := by
  intro front
  rcases h.waiting with none | ⟨step, one⟩
  · rw [none] at front
    cases front
  · rw [one] at front
    cases front

/-- the next step is written, or the link is connected -/
theorem Onward.early (h : Onward steps l es m) (waiting : l.waiting = [])
    (phase : l.phase ≠ .connected) (held : l.held?.isSome = true) :
    Early m ∨ m.phase = .connected ∧ m.waiting = [] ∧ m.held?.isSome = true := by
  cases h with
  | @ask step =>
    refine .inl ⟨.inr ⟨step, ?_⟩, phase⟩
    show l.waiting ++ _ = _
    rw [waiting]
    rfl
  | join => exact .inr ⟨rfl, waiting, held⟩
  | halt => exact .inl ⟨.inl waiting, phase⟩

/-- the books stay as they are, but for a reply that is dropped, until the link is connected -/
theorem Early.move (early : Early l) (h : Move l ins es m) (calm : ∀ e ∈ es, e.opening? = none) :
    (books es = .empty ∨ ∃ reply, es = [.met none reply]) ∧
      (Early m ∨ m.phase = .connected ∧ m.waiting = [] ∧ m.held?.isSome = true) := by
  cases h with
  | refuse | rest | keep | pass | hear | spoil =>
    exact ⟨.inl rfl, .inl ⟨early.waiting, early.phase⟩⟩
  | dial phase =>
    rw [connect, if_pos phase]
    exact ⟨.inl rfl, .inl ⟨early.waiting, fun h => by cases h⟩⟩
  | attach => cases calm _ List.mem_cons_self
  | advance h rest reply s plain phase held front passes onward =>
    have alone := early.alone front
    subst alone
    refine ⟨.inl ?_, ?_⟩
    · exact (books_append [.met (some (.handshake h)) reply] _).trans (by rw [onward.books]; rfl)
    · refine onward.early rfl early.phase ?_
      show (l.socket?.map _).isSome = true
      rw [held]
      rfl
  | balk h rest reply plain front =>
    exact ⟨.inl rfl, .inl ⟨.inl (early.alone front), early.phase⟩⟩
  | dispatch _ _ _ phase => exact absurd phase early.phase
  | lose err retry active =>
    exact ⟨.inl (books_fail active err retry), .inl (mute_fail active err retry).early⟩
  | push reply es known mails => exact ⟨.inl (books_mails mails), .inl early⟩
  | drop reply => exact ⟨.inr ⟨reply, rfl⟩, .inl early⟩
  | take _ _ _ _ front => exact absurd front early.front
  | finish _ _ _ _ front => exact absurd front early.front
  | part _ _ _ _ _ _ front => exact absurd front early.front
  | stop => exact ⟨.inl (books_shutdown l), .inl ⟨.inl rfl, fun h => by cases h⟩⟩

/-! ## books in order -/

/-- the queue of the link against the books of its latest sitting -/
inductive Serves (x : Sitting) (l : Link) : Prop
  /-- no command is written yet -/
  | early (early : Early l) (written : x.books.written = []) (taken : x.books.taken = [])
  | serving (held : l.held?.isSome = true) (phase : l.phase = .connected)
    (waiting : l.waiting = (outstanding x.books.written x.books.taken).map .command)
  | lost (mute : Mute l) (released : ∃ socket, .released socket ∈ x.effects)

structure Booked (x : Sitting) (l : Link) : Prop where
  fresh : ∀ c ∈ x.books.written, c.Fresh
  pending : ∀ c ∈ l.pending, c.Fresh
  enough : x.books.taken.length ≤ slots x.books.written
  account : x.books.account = ledger x.books.written x.books.taken
  drops : DropsIdle x.effects
  serves : Serves x l

theorem Onward.pending (h : Onward steps l es m) : m.pending = l.pending := by
  cases h <;> rfl

theorem Move.pending (h : Move l ins es m) {c : Command} (hc : c ∈ m.pending) :
    c ∈ l.pending ∨ .command c ∈ ins := by
  cases h with
  | keep c' registry =>
    rcases List.mem_append.mp hc with old | new
    · exact .inl old
    · rw [List.mem_singleton.mp new]
      exact .inr List.mem_cons_self
  | dial phase =>
    rw [connect, if_pos phase] at hc
    exact .inl hc
  | attach _ _ _ _ onward =>
    rw [onward.pending] at hc
    exact .inl hc
  | advance _ _ _ _ _ _ _ _ _ onward =>
    rw [onward.pending] at hc
    exact .inl hc
  | dispatch c' rest s phase held front =>
    rw [front]
    exact .inl (List.mem_cons_of_mem _ hc)
  | lose err retry active =>
    rw [fail_of_active active] at hc
    cases hc
  | part | stop => cases hc
  | _ => exact .inl hc

theorem books_extend (es : List Effect) (x : Sitting) :
    (x.extend es).books = x.books.append (RespLink.books es) := books_append _ _

theorem books_extend_of_empty {x : Sitting} (none : books es = .empty) :
    (x.extend es).books = x.books := by
  rw [books_extend, none, Books.append_empty]

/-- a move that the books do not see -/
theorem Booked.still {x : Sitting} (h : Booked x l) (none : books es = .empty)
    (pending : ∀ c ∈ m.pending, c.Fresh) (serves : Serves (x.extend es) m) :
    Booked (x.extend es) m := by
  have same := books_extend_of_empty (x := x) none
  refine ⟨?_, pending, ?_, ?_, ?_, serves⟩
  · rw [same]
    exact h.fresh
  · rw [same]
    exact h.enough
  · rw [same]
    exact h.account
  · exact h.drops.append (congrArg Books.dropped none)

theorem books_extend_of_drop (x : Sitting) (reply : Reply) :
    (x.extend [.met none reply]).books
      = { x.books with dropped := x.books.dropped ++ [reply] } := by
  rw [books_extend]
  simp only [Books.append, books, List.filterMap_cons, List.filterMap_nil, List.append_nil,
    Effect.command?, Effect.taken?, Effect.entry?, Effect.dropped?]

theorem Booked.drop {x : Sitting} (h : Booked x l) (reply : Reply)
    (idle : (∃ socket, .released socket ∈ x.effects) ∨ x.books.taken.length = slots x.books.written)
    (pending : ∀ c ∈ m.pending, c.Fresh) (serves : Serves (x.extend [.met none reply]) m) :
    Booked (x.extend [.met none reply]) m := by
  have same := books_extend_of_drop x reply
  refine ⟨?_, pending, ?_, ?_, h.drops.drop idle reply, serves⟩
  · rw [same]
    exact h.fresh
  · rw [same]
    exact h.enough
  · rw [same]
    exact h.account

theorem Booked.move_of_early {x : Sitting} (h : Booked x l) (move : Move l ins es m)
    (calm : ∀ e ∈ es, e.opening? = none) (pending : ∀ c ∈ m.pending, c.Fresh) (early : Early l)
    (written : x.books.written = []) (taken : x.books.taken = []) : Booked (x.extend es) m := by
  obtain ⟨seen, then'⟩ := early.move move calm
  have serves (written : (x.extend es).books.written = [])
      (taken : (x.extend es).books.taken = []) : Serves (x.extend es) m := by
    rcases then' with early' | ⟨phase, waiting, held⟩
    · exact .early early' written taken
    · refine .serving held phase ?_
      rw [waiting, written, taken]
      rfl
  rcases seen with none | ⟨reply, rfl⟩
  · have same := books_extend_of_empty (x := x) none
    exact h.still none pending (serves (by rw [same]; exact written) (by rw [same]; exact taken))
  · have same := books_extend_of_drop x reply
    exact h.drop reply (.inr (by rw [written, taken]; rfl)) pending
      (serves (by rw [same]; exact written) (by rw [same]; exact taken))

theorem Booked.move_of_lost {x : Sitting} (h : Booked x l) (move : Move l ins es m)
    (calm : ∀ e ∈ es, e.opening? = none) (pending : ∀ c ∈ m.pending, c.Fresh) (mute : Mute l)
    (released : ∃ socket, .released socket ∈ x.effects) : Booked (x.extend es) m := by
  obtain ⟨seen, _⟩ := mute.early.move move calm
  have serves : Serves (x.extend es) m := by
    obtain ⟨socket, gone⟩ := released
    exact .lost (mute.move move calm).1 ⟨socket, List.mem_append_left _ gone⟩
  rcases seen with none | ⟨reply, rfl⟩
  · exact h.still none pending serves
  · exact h.drop reply (.inl released) pending serves

theorem released_of_teardown (held : l.held?.isSome = true) (err : Error) :
    ∃ socket, .released socket ∈ (l.teardown err).effects := by
  obtain ⟨socket, h⟩ := Option.isSome_iff_exists.mp held
  have inside : socket ∈ (l.teardown err).effects.filterMap Effect.released? := by
    rw [released_teardown, h]
    exact List.mem_cons_self
  obtain ⟨e, he, same⟩ := List.mem_filterMap.mp inside
  refine ⟨socket, ?_⟩
  cases e <;> cases same
  exact he

/-- what waits first is the first command that is not answered in full -/
theorem outstanding_of_front {written : List Command} {taken : List Reply} {c : Command}
    {rest : List Waiter} (waiting : l.waiting = (outstanding written taken).map .command)
    (front : l.waiting = .command c :: rest) :
    ∃ cs, outstanding written taken = c :: cs ∧ rest = cs.map .command := by
  rw [front] at waiting
  cases queue : outstanding written taken with
  | nil =>
    rw [queue] at waiting
    cases waiting
  | cons c' cs =>
    rw [queue] at waiting
    cases waiting
    exact ⟨cs, rfl, rfl⟩

/-- the command at the front takes a reply -/
theorem Booked.take {x : Sitting} (h : Booked x l) {c : Command} {rest : List Waiter}
    {reply : Reply} {later : List Entry}
    (waiting : l.waiting = (outstanding x.books.written x.books.taken).map .command)
    (front : l.waiting = .command c :: rest)
    (noted : books es = ⟨[], [reply], .took c.ticket reply :: later, []⟩)
    (result : later =
      if (c.accept reply).complete = true then [.gave c.ticket (c.accept reply).result] else [])
    (pending : ∀ c ∈ m.pending, c.Fresh)
    (serves : ∀ cs, rest = cs.map .command →
      outstanding (x.extend es).books.written (x.extend es).books.taken =
        (if (c.accept reply).complete = true then cs else c.accept reply :: cs) →
      Serves (x.extend es) m) : Booked (x.extend es) m := by
  have same : (x.extend es).books = ⟨x.books.written, x.books.taken ++ [reply],
      x.books.account ++ .took c.ticket reply :: later, x.books.dropped⟩ := by
    rw [books_extend, noted]
    simp only [Books.append, List.append_nil]
  obtain ⟨cs, first, rfl⟩ := outstanding_of_front waiting front
  have open' : outstanding x.books.written x.books.taken ≠ [] := by
    rw [first]
    exact List.cons_ne_nil _ _
  have room := length_lt_slots open'
  refine ⟨?_, pending, ?_, ?_, h.drops.append (congrArg Books.dropped noted), serves cs rfl ?_⟩
  · rw [same]
    exact h.fresh
  · rw [same]
    show (x.books.taken ++ [reply]).length ≤ slots x.books.written
    rw [List.length_append, List.length_singleton]
    exact room
  · rw [same]
    show x.books.account ++ _ = ledger x.books.written (x.books.taken ++ [reply])
    rw [ledger_take h.fresh first reply, h.account, result]
  · rw [same]
    exact outstanding_take h.fresh first reply

/-- a command is written -/
theorem Booked.put {x : Sitting} (h : Booked x l) {c : Command} {socket : Nat} {frame : Bytes}
    (fresh : c.Fresh) (pending : ∀ c ∈ m.pending, c.Fresh)
    (serves : outstanding (x.books.written ++ [c]) x.books.taken
        = outstanding x.books.written x.books.taken ++ [c] →
      (x.extend [.wrote socket (.command c) frame]).books
        = { x.books with written := x.books.written ++ [c] } →
      Serves (x.extend [.wrote socket (.command c) frame]) m) :
    Booked (x.extend [.wrote socket (.command c) frame]) m := by
  have same : (x.extend [.wrote socket (.command c) frame]).books
      = { x.books with written := x.books.written ++ [c] } := by
    rw [books_extend]
    simp only [Books.append, books, List.filterMap_cons, List.filterMap_nil, List.append_nil,
      Effect.command?, Effect.taken?, Effect.entry?, Effect.dropped?]
  refine ⟨?_, pending, ?_, ?_, h.drops.append rfl, serves (outstanding_put fresh h.enough) same⟩
  · rw [same]
    intro c' hc
    rcases List.mem_append.mp hc with old | new
    · exact h.fresh c' old
    · rw [List.mem_singleton.mp new]
      exact fresh
  · rw [same]
    show x.books.taken.length ≤ slots (x.books.written ++ [c])
    rw [slots_append]
    exact Nat.le_trans h.enough (Nat.le_add_right _ _)
  · rw [same]
    show x.books.account = ledger (x.books.written ++ [c]) x.books.taken
    rw [ledger_put fresh h.enough]
    exact h.account

theorem Booked.move_of_serving {x : Sitting} (h : Booked x l) (move : Move l ins es m)
    (calm : ∀ e ∈ es, e.opening? = none) (pending : ∀ c ∈ m.pending, c.Fresh)
    (held : l.held?.isSome = true) (phase : l.phase = .connected)
    (waiting : l.waiting = (outstanding x.books.written x.books.taken).map .command) :
    Booked (x.extend es) m := by
  have active : l.phase.isActive = true := by rw [phase]; rfl
  -- the link goes on with the same queue
  have goes (none : books es = .empty) (held' : m.held?.isSome = true)
      (phase' : m.phase = .connected) (waiting' : m.waiting = l.waiting) :
      Booked (x.extend es) m := by
    refine h.still none pending (.serving held' phase' ?_)
    rw [books_extend_of_empty none, waiting', waiting]
  have lost (none : books es = .empty) (mute : Mute m)
      (released : ∃ socket, .released socket ∈ es) : Booked (x.extend es) m := by
    obtain ⟨socket, gone⟩ := released
    exact h.still none pending (.lost mute ⟨socket, List.mem_append_right _ gone⟩)
  cases move with
  | refuse | rest | keep | pass | hear => exact goes rfl held phase rfl
  | dial phase' => rw [phase] at phase'; cases phase'
  | attach => cases calm _ List.mem_cons_self
  | advance _ _ _ _ _ phase' => rw [phase] at phase'; cases phase'
  | balk step rest reply plain front =>
    rw [waiting] at front
    have inside : .handshake step ∈
        (outstanding x.books.written x.books.taken).map Waiter.command := by
      rw [front]
      exact List.mem_cons_self
    obtain ⟨c, _, e⟩ := List.mem_map.mp inside
    cases e
  | dispatch c rest s _ held' front =>
    have fresh : c.Fresh := h.pending c (by rw [front]; exact List.mem_cons_self)
    refine h.put fresh pending fun last same => .serving rfl phase ?_
    rw [same]
    show l.waiting ++ [.command c] = (outstanding (_ ++ [c]) _).map .command
    rw [last, waiting, List.map_append]
    rfl
  | lose err retry =>
    refine lost (books_fail active err retry) (mute_fail active err retry) ?_
    obtain ⟨socket, gone⟩ := released_of_teardown held err
    rw [fail_of_active active]
    exact ⟨socket, List.mem_append_left _ gone⟩
  | push reply es known mails => exact goes (books_mails mails) held phase rfl
  | drop reply plain front =>
    have none : outstanding x.books.written x.books.taken = [] := by
      rw [front] at waiting
      exact List.map_eq_nil_iff.mp waiting.symm
    refine h.drop reply (.inr (length_eq_slots h.enough none)) pending (.serving held phase ?_)
    rw [books_extend_of_drop]
    exact waiting
  | take c rest reply plain front more =>
    refine h.take waiting front rfl (if_neg (by rw [more]; decide)).symm pending ?_
    rintro cs rfl queue
    refine .serving held phase ?_
    rw [queue, if_neg (by rw [more]; decide)]
    rfl
  | finish c rest reply plain front last =>
    refine h.take waiting front rfl (if_pos last).symm pending ?_
    rintro cs rfl queue
    refine .serving held phase ?_
    rw [queue, if_pos last]
  | part c rest reply err plain _ front last =>
    have noted := books_part c reply err { l with waiting := rest }
    refine h.take waiting front noted (if_pos last).symm pending fun cs _ _ => ?_
    obtain ⟨socket, gone⟩ := released_of_teardown (l := { l with waiting := rest }) held err
    refine .lost ⟨rfl, fun h => by cases h⟩ ⟨socket, ?_⟩
    exact List.mem_append_right _ (List.mem_cons_of_mem _ (List.mem_append_left _ gone))
  | spoil f same => exact goes rfl (by rw [l.held?_spoilt same]; exact held) phase rfl
  | stop =>
    refine lost (books_shutdown l) ⟨rfl, fun h => by cases h⟩ ?_
    obtain ⟨socket, gone⟩ := Option.isSome_iff_exists.mp held
    obtain ⟨s, some, rfl⟩ := Option.map_eq_some_iff.mp gone
    refine ⟨s.number, ?_⟩
    rw [shutdown_effects, some]
    exact List.mem_append_right _ List.mem_cons_self

/-- the books of a fresh sitting -/
theorem Booked.of_empty {x : Sitting} (none : x.books = .empty) (pending : ∀ c ∈ l.pending, c.Fresh)
    (serves : Early l ∨ l.phase = .connected ∧ l.waiting = [] ∧ l.held?.isSome = true) :
    Booked x l := by
  have start : DropsIdle [] := fun before reply after split => by simp at split
  have drops := start.append (congrArg Books.dropped none)
  refine ⟨?_, pending, ?_, ?_, drops, ?_⟩
  · rw [none]
    exact fun c hc => nomatch hc
  · rw [none]
    exact Nat.le_refl 0
  · rw [none]
    rfl
  · rcases serves with early | ⟨phase, waiting, held⟩
    · exact .early early (congrArg Books.written none) (congrArg Books.taken none)
    · refine .serving held phase ?_
      rw [none, waiting]
      rfl

theorem tracks_booked :
    Tracks (fun i => ∀ c, i = .command c → c.Fresh) Booked where
  extend := by
    intro x l m ins es h move fits calm
    have pending : ∀ c ∈ m.pending, c.Fresh := by
      intro c hc
      rcases move.pending hc with old | new
      · exact h.pending c old
      · exact fits _ new c rfl
    cases h.serves with
    | early early written taken => exact h.move_of_early move calm pending early written taken
    | serving held phase waiting => exact h.move_of_serving move calm pending held phase waiting
    | lost mute released => exact h.move_of_lost move calm pending mute released
  attach := by
    intro x l m es h socket sentinel? err phase onward
    refine .of_empty ?_ (fun c hc => ?_) (onward.early rfl (fun h => ?_) rfl)
    · show books (failures err l.waitingCommands ++ es) = .empty
      rw [books_append, books_failures, onward.books]
      rfl
    · rw [onward.pending] at hc
      exact h.pending c hc
    · rw [show (l.holding socket).phase = .connecting from phase] at h
      cases h

end
end Link

/-! ## plays -/

/-- who takes which reply, and what comes of it -/
structure Settlement (b : Books) : Prop where
  /-- a command that is written has met no reply, and expects one at least -/
  fresh : ∀ c ∈ b.written, c.Fresh
  /-- takings and results are those of the ledger, in its order -/
  account : b.account = ledger b.written b.taken
  /-- each reply is taken once -/
  once : (b.account.filterMap Entry.took?).map Prod.snd = b.taken
  /-- a reply is taken by the command into whose slots it falls -/
  accepted : ∀ i j c, b.written[i]? = some c → slots (b.written.take i) ≤ j →
    j < slots (b.written.take i) + c.expected →
    (b.account.filterMap Entry.took?)[j]? = b.taken[j]?.map fun reply => (c.ticket, reply)
  /-- a command resolves when its last slot is filled, from the replies in its slots -/
  resolved : ∀ i c, b.written[i]? = some c →
    (b.account.filterMap Entry.gave?)[i]? =
      if slots (b.written.take i) + c.expected ≤ b.taken.length then
        some (c.ticket, c.answer ((b.taken.drop (slots (b.written.take i))).take c.expected))
      else none

theorem Link.Booked.settlement {x : Sitting} {l : Link} (h : Booked x l) :
    Settlement x.books where
  fresh := h.fresh
  account := h.account
  once := by
    rw [h.account]
    exact taken_ledger h.enough
  accepted i j c written after before := by
    rw [h.account]
    exact accepted_ledger written after before
  resolved i c written := by
    rw [h.account]
    exact resolved_ledger written

/-- before the first socket nothing is written, so nothing is noted -/
theorem account_of_overture {config : Config} {x : Sitting} {k k' : Link}
    (guarded : Link.Guarded config x k) (booked : Link.Booked x k') (opening : x.opening? = none) :
    x.books.account = [] := by
  have gated := guarded.stands.gated
  rw [Link.Gated, opening] at gated
  have none : x.books.written = [] := by
    refine List.filterMap_eq_nil_iff.mpr fun e he => ?_
    cases written : e.command? with
    | none => rfl
    | some c =>
      obtain ⟨socket, frame, rfl⟩ := Effect.wrote_of_command written
      have sent : .sent (.command c) frame ∈ x.exchanges := List.mem_filterMap.mpr ⟨_, he, rfl⟩
      cases gated _ sent
  rw [booked.account, none]
  rfl

namespace Scene

/-- **Replies are matched to commands in order, socket by socket.**  In every play and for every
socket: the replies that meet the link are those in the bytes of that socket, pushes apart, from the
first one on, and all of them while the socket is in use; those that commands take are settled by
the ledger; and one is dropped only when all replies expected so far have come.  Nothing is taken
and nothing resolves before the first socket. -/
theorem replies_settled (role : Role) (config : Config) (events : List Event)
    (plays : (start role config).Plays events) :
    let s := (start role config).run events
    (∀ x ∈ (Sittings.of s.past).all, ∀ o, x.opening? = some o →
      x.replies <+: repliesOf role config events o.epoch ∧ Settlement x.books ∧
        DropsIdle x.effects) ∧
    (∀ socket, s.link.stopped = false → s.link.held? = some socket →
      ∃ o, (Sittings.of s.past).latest.opening? = some o ∧ o.socket = socket ∧
        (Sittings.of s.past).latest.replies = repliesOf role config events o.epoch) ∧
    (s.openings.map Opening.epoch).Pairwise (· < ·) ∧
    ∀ e ∈ s.past, e.entry?.isSome = true →
      ∃ x ∈ (Sittings.of s.past).all, x.opening?.isSome = true ∧ e ∈ x.effects := by
  intro s
  obtain ⟨ins, moves, fresh⟩ := moves_of_plays role config plays
  have heard := heard_of_plays role config plays
  have early : (Link.start role config).Early := ⟨.inl rfl, fun h => nomatch h⟩
  have booked := moves.tracks Link.tracks_booked (fun i hi c hc => fresh c (hc ▸ hi))
    (s := ⟨⟨none, []⟩, []⟩)
    ⟨.of_empty rfl (fun c hc => nomatch hc) (.inl early), fun x hx => nomatch hx⟩
  have guarded := moves.tracks (Link.tracks_guarded config) (fun _ _ => trivial)
    (s := ⟨⟨none, []⟩, []⟩) ⟨Link.guarded_start role config, fun x hx => nomatch hx⟩
  refine ⟨fun x hx o opening => ?_, fun socket running held => ?_, heard.ordered,
    fun e he some => ?_⟩
  · obtain ⟨k, inOrder⟩ := booked.exists hx
    exact ⟨heard.heard x hx o opening, inOrder.settlement, inOrder.drops⟩
  · have sound : s.Sound := (sound_start role config).run plays running
    obtain ⟨o, opening, current, same⟩ := sound.kept.latest held
    obtain ⟨_, _, all⟩ := heard.now running (by rw [held]; rfl)
    refine ⟨o, opening, same, ?_⟩
    rw [current]
    exact all
  · have calm : e.opening? = none := by
      cases e <;> first | rfl | cases some
    obtain ⟨x, hx, inside⟩ := Sittings.exists_mem_of he calm
    refine ⟨x, hx, ?_, inside⟩
    cases opening : x.opening? with
    | some o => rfl
    | none =>
      obtain ⟨k, inOrder⟩ := booked.exists hx
      obtain ⟨k', gated⟩ := guarded.exists hx
      obtain ⟨entry, same⟩ := Option.isSome_iff_exists.mp some
      have noted : entry ∈ x.books.account := List.mem_filterMap.mpr ⟨e, inside, same⟩
      rw [account_of_overture gated inOrder opening] at noted
      cases noted

/-- one command that expects two replies and one that expects one; four replies come -/
theorem replies_settled_of_two_commands :
    let two := (Command.ofRequest 1 (Request.ofVerb "PING") .utf8).expecting 2
    let one := Command.ofRequest 2 (Request.ofVerb "PING") .utf8
    let events := [.send two, .send one, .attached 1 (.fresh 7) none,
      .data 1 (Utf8.encode "+A\r\n+B"), .data 1 (Utf8.encode "\r\n+C\r\n+D\r\n")]
    (start .command .default).Plays events ∧
      ((start .command .default).run events).link.held? = some 7 ∧
      ∃ o, (Sittings.of ((start .command .default).run events).past).latest.opening? = some o ∧
        Settlement (Sittings.of ((start .command .default).run events).past).latest.books ∧
        (Sittings.of ((start .command .default).run events).past).latest.replies
          = repliesOf .command .default events o.epoch := by
  intro two one events
  have plays : (start .command .default).Plays events := by
    refine ⟨(Command.fresh_ofRequest _ _ _).expecting 2, Command.fresh_ofRequest _ _ _,
      List.mem_singleton.mpr rfl, ⟨⟨1, 7, none⟩, ?_, rfl⟩, ⟨⟨1, 7, none⟩, ?_, rfl⟩, trivial⟩
    · decide +kernel
    · decide +kernel
  have running : ((start .command .default).run events).link.stopped = false := by
    decide +kernel
  have held : ((start .command .default).run events).link.held? = some 7 := by
    decide +kernel
  obtain ⟨each, latest, _, _⟩ := replies_settled .command .default events plays
  obtain ⟨o, opening, _, all⟩ := latest 7 running held
  obtain ⟨_, settled, _⟩ := each _ List.mem_cons_self o opening
  exact ⟨plays, held, o, opening, settled, all⟩

end Scene
end RespLink
