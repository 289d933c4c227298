import RespLink.Proofs.Futures
import RespLink.Proofs.Ledger

/-!
# Commands with several replies

A command counts its replies and keeps what each of them is worth, the values in one place and the
first failure in another.  When the last reply is there, the two come to one result, and whoever
waits for the command gets that result once; if the link fails before, its failure is all they get.

* `Command.worth`   what one reply is worth to a command;
* `Total`           what the worths of all replies come to;
* `Command.foldl_of_ok`, `failure?_foldl_of_error`   a command after replies of which none fails,
                    and after one that does;
* `Command.total_answer`   what the replies of a command come to is what it resolves to;
* `resultsOf_teardown`     what those who wait are told when a link fails;
* `Link.onReplies_of_short`, `Link.onReplies_of_full`   replies for the command in front, short of
                    the number it expects and up to it;
* `Link.onReplies_tells`, `Link.onReplies_teardown_tells`   what those who wait are told then;
* `Command.completes_once` all of it for one command.
-/

namespace RespLink

/-- what the worths of all replies come to: the earliest failure, else the one value, else the values
in their order -/
inductive Total : List (Except Error Value) → Except Error Value → Prop
  | failure (before : List Value) (err : Error) (after : List (Except Error Value)) :
    Total (before.map .ok ++ .error err :: after) (.error err)
  | single (v : Value) : Total [.ok v] (.ok v)
  | several (v w : Value) (vs : List Value) :
    Total ((v :: w :: vs).map .ok) (.ok (.array (v :: w :: vs)))

/-- worths are values, all of them or up to a failure -/
theorem values_or_failure (worths : List (Except Error Value)) :
    (∃ values : List Value, worths = values.map .ok) ∨
      ∃ (before : List Value) (err : Error) (after : List (Except Error Value)),
        worths = before.map .ok ++ .error err :: after := by
  induction worths with
  | nil => exact .inl ⟨[], rfl⟩
  | cons worth rest ih =>
    cases worth with
    | error err => exact .inr ⟨[], err, rest, rfl⟩
    | ok value =>
      obtain ⟨values, rfl⟩ | ⟨before, err, after, rfl⟩ := ih
      · exact .inl ⟨value :: values, rfl⟩
      · exact .inr ⟨value :: before, err, after, rfl⟩

/-! ## the account of a command -/

namespace Command

/-- the value of a reply, or why it has none -/
def worth (c : Command) (reply : Reply) : Except Error Value :=
  RespLink.transform reply c.transform c.shape c.encoding

section
variable {c : Command} {rs : List Reply} {values : List Value} {err : Error}

/-- replies with values are all kept, in their order -/
theorem foldl_of_ok (worths : rs.map c.worth = values.map .ok) :
    rs.foldl accept c =
      { c with received := c.received + rs.length, values := c.values ++ values } := by
  induction rs generalizing c values with
  | nil =>
    obtain rfl : values = [] := List.map_eq_nil_iff.mp worths.symm
    rw [List.append_nil]
    rfl
  | cons r rest ih =>
    cases values with
    | nil => cases worths
    | cons value values =>
      obtain ⟨first, others⟩ := List.cons.inj worths
      rw [List.foldl_cons, accept_of_ok first]
      have later := ih (c := { c with received := c.received + 1, values := c.values ++ [value] })
        others
      rw [later, List.append_assoc, List.singleton_append, List.length_cons, Nat.add_assoc,
        Nat.add_comm 1]

/-- a failure is not forgotten, and no later one takes its place -/
theorem failure?_foldl (failed : c.failure? = some err) (rs : List Reply) :
    (rs.foldl accept c).failure? = some err := by
  induction rs generalizing c with
  | nil => exact failed
  | cons r rest ih =>
    refine ih ?_
    unfold accept
    split
    · exact failed
    · rw [failed]
      rfl

theorem failure?_foldl_of_error {before : List Reply} {r : Reply}
    (sound : c.failure? = none) (worths : before.map c.worth = values.map .ok)
    (fails : c.worth r = .error err) (after : List Reply) :
    ((before ++ r :: after).foldl accept c).failure? = some err := by
  have met := accept_of_error (c := { c with
    received := c.received + before.length, values := c.values ++ values }) fails
  rw [List.foldl_append, foldl_of_ok worths, List.foldl_cons, met, sound]
  exact failure?_foldl rfl after

/-- what a command resolves to is what its replies come to -/
theorem total_answer (fresh : c.Fresh) (full : rs.length = c.expected) :
    Total (rs.map c.worth) (c.answer rs) := by
  obtain ⟨values, worths⟩ | ⟨before, err, after, worths⟩ := values_or_failure (rs.map c.worth)
  · have size : values.length = c.expected := by
      rw [← full, ← List.length_map (f := c.worth), worths, List.length_map]
    have kept : c.answer rs =
        if c.expected = 1 then .ok (values.getLast?.getD .nil) else .ok (.array values) := by
      rw [answer, foldl_of_ok worths, result, fresh.failure, fresh.values, List.nil_append]
    rw [worths, kept]
    match values with
    | [] => exact absurd fresh.expected (by rw [← size]; decide)
    | [v] =>
      rw [if_pos (show c.expected = 1 from size.symm)]
      exact .single v
    | v :: w :: vs =>
      rw [if_neg (by rw [← size, List.length_cons, List.length_cons]; omega)]
      exact .several v w vs
  · obtain ⟨front, back, rfl, early, late⟩ := List.map_eq_append_iff.mp worths
    obtain ⟨r, rest, rfl, fails, later⟩ := List.map_eq_cons_iff.mp late
    have failed := failure?_foldl_of_error fresh.failure early fails rest
    rw [worths, answer, result, failed]
    exact .failure before err after

end
end Command

/-! ## those who wait -/

namespace Link

section
variable {l : Link} {c : Command} {rest : List Waiter} {rs : List Reply}

/-- of commands that fail together, each is told so -/
theorem resultsOf_failures (t : Ticket) (err : Error) (cs : List Command) :
    resultsOf t (failures err cs) = (cs.filter fun c => c.ticket = t).map fun _ => .error err := by
  induction cs with
  | nil => rfl
  | cons c cs ih =>
    have first : failures err (c :: cs) = [.failed c.ticket err] ++ failures err cs := rfl
    rw [first, resultsOf_append, resultsOf_result rfl, ih, List.filter_cons]
    by_cases same : c.ticket = t <;> simp [same]

theorem resultsOf_teardown (t : Ticket) (err : Error) (l : Link) :
    resultsOf t (l.teardown err).effects =
      (l.commands.filter fun c => c.ticket = t).map fun _ => .error err := by
  have quiet : resultsOf t (l.socket?.toList.map fun s => .released s.number) = [] := by
    cases l.socket? <;> rfl
  rw [teardown_effects, resultsOf_append, quiet, List.append_nil, resultsOf_failures]
  rfl

theorem filter_ticket_eq_nil {t : Ticket} {cs : List Command}
    (apart : ∀ held ∈ cs, held.ticket ≠ t) : (cs.filter fun c => c.ticket = t) = [] :=
  List.filter_eq_nil_iff.mpr fun held inside same => apart held inside (of_decide_eq_true same)

/-- a command that is complete tells its result once, whatever else ends with it -/
theorem complete_tells (apart : ∀ held ∈ l.commands, held.ticket ≠ c.ticket) :
    resultsOf c.ticket (complete c l).effects = [c.result] ∧
      ∀ held ∈ (complete c l).link.commands, held.ticket ≠ c.ticket := by
  have told : resultsOf c.ticket [.resolved c.ticket c.result] = [c.result] := by
    rw [resultsOf_result rfl, if_pos rfl]
  have before (t : Turn) (silent : resultsOf c.ticket t.effects = []) :
      resultsOf c.ticket (t.andThen fun l => ⟨l, [.resolved c.ticket c.result]⟩).effects
        = [c.result] := by
    rw [Turn.andThen_effects, resultsOf_append, silent, told, List.nil_append]
  rw [complete]
  split
  · rw [closeGracefully]
    split
    · refine ⟨before _ ?_, fun held inside => (List.not_mem_nil inside).elim⟩
      rw [resultsOf_teardown, filter_ticket_eq_nil apart]
      rfl
    · exact ⟨before _ rfl, apart⟩
  · exact ⟨before _ rfl, apart⟩

/-! ## replies for the command in front -/

/-- the link with this command in front of those that wait -/
def fronting (c : Command) (rest : List Waiter) (l : Link) : Link :=
  { l with waiting := .command c :: rest }

theorem fronting_of_front (front : l.waiting = .command c :: rest) : l.fronting c rest = l := by
  rw [fronting, ← front]

/-- a reply for the command in front, and what is done next -/
theorem onReply_fronting {r : Reply} (plain : l.push? r = none) :
    (l.fronting c rest).onReply r =
      Turn.andThen ⟨l.fronting (c.accept r) rest, [.met (some (.command c)) r]⟩ fun m =>
        if (c.accept r).complete then complete (c.accept r) { m with waiting := rest } else .of m := by
  have same : (l.fronting c rest).push? r = none := plain
  rw [onReply, same]
  dsimp only [Turn.andThen, accept, fronting]
  split <;> rfl

/-- replies that are not enough are taken in silence -/
theorem onReplies_of_short (rest : List Waiter) (plain : ∀ r ∈ rs, l.push? r = none)
    (more : c.received + rs.length < c.expected) :
    (onReplies l.epoch rs (l.fronting c rest)).link =
        l.fronting (rs.foldl Command.accept c) rest ∧
      ∀ t, resultsOf t (onReplies l.epoch rs (l.fronting c rest)).effects = [] := by
  induction rs generalizing c with
  | nil => exact ⟨rfl, fun _ => rfl⟩
  | cons r rs ih =>
    rw [List.length_cons] at more
    have waits : (c.accept r).complete = false := by
      rw [Command.complete, Command.expected_accept, Command.received_accept,
        decide_eq_false_iff_not]
      omega
    obtain ⟨link, silent⟩ := ih (c := c.accept r)
      (fun r inside => plain r (List.mem_cons_of_mem _ inside))
      (by rw [Command.expected_accept, Command.received_accept]; omega)
    rw [onReplies, if_pos (show (l.fronting c rest).epoch = l.epoch from rfl),
      onReply_fronting (plain r List.mem_cons_self), waits, List.foldl_cons]
    refine ⟨link, fun t => ?_⟩
    rw [Turn.andThen_effects, resultsOf_append]
    exact silent t

/-- the last of the replies that are expected completes the command -/
theorem onReplies_of_full (rest : List Waiter) (plain : ∀ r ∈ rs, l.push? r = none)
    (nonempty : rs ≠ []) (all : c.received + rs.length = c.expected) :
    ∃ before, (∀ t, resultsOf t before = []) ∧
      onReplies l.epoch rs (l.fronting c rest) =
        Turn.andThen ⟨{ l with waiting := rest }, before⟩ (complete (rs.foldl Command.accept c)) := by
  obtain rfl | ⟨init, last, rfl⟩ := List.eq_nil_or_concat' rs
  · exact absurd rfl nonempty
  rw [List.length_append, List.length_singleton] at all
  have first : ∀ r ∈ init, l.push? r = none :=
    fun r inside => plain r (List.mem_append_left _ inside)
  obtain ⟨link, silent⟩ := onReplies_of_short (c := c) rest first (by omega)
  have done : ((init.foldl Command.accept c).accept last).complete = true := by
    rw [Command.complete, Command.expected_accept, Command.received_accept,
      Command.expected_foldl, Command.received_foldl, decide_eq_true_eq]
    omega
  have single (m : Link) (epoch : m.epoch = l.epoch) : onReplies l.epoch [last] m = m.onReply last := by
    rw [onReplies, if_pos epoch]
    exact Turn.andThen_of _
  refine ⟨(onReplies l.epoch init (l.fronting c rest)).effects ++
    [.met (some (.command (init.foldl Command.accept c))) last], fun t => ?_, ?_⟩
  · rw [resultsOf_append, silent]
    rfl
  · have final := plain last (List.mem_append_right _ List.mem_cons_self)
    rw [onReplies_append, Turn.andThen, link, single (l.fronting _ rest) rfl,
      onReply_fronting final, done, List.foldl_append]
    exact Turn.ext rfl (List.append_assoc _ _ _).symm

/-- whoever waits for the command in front is told its result by the last reply it expects -/
theorem onReplies_tells (fresh : c.Fresh) (full : rs.length = c.expected)
    (plain : ∀ r ∈ rs, l.push? r = none)
    (apart : ∀ other ∈ { l with waiting := rest }.commands, other.ticket ≠ c.ticket) :
    resultsOf c.ticket (onReplies l.epoch rs (l.fronting c rest)).effects = [c.answer rs] ∧
      ∀ held ∈ (onReplies l.epoch rs (l.fronting c rest)).link.commands,
        held.ticket ≠ c.ticket := by
  have nonempty : rs ≠ [] := by
    rintro rfl
    exact absurd fresh.expected (by rw [← full]; decide)
  obtain ⟨before, silent, done⟩ := onReplies_of_full rest plain nonempty
    (by rw [fresh.received, Nat.zero_add, full])
  have same : (rs.foldl Command.accept c).ticket = c.ticket := Command.ticket_foldl c rs
  obtain ⟨told, gone⟩ := complete_tells (l := { l with waiting := rest })
    (c := rs.foldl Command.accept c) (by rw [same]; exact apart)
  rw [same] at told gone
  rw [done, Turn.andThen_effects, resultsOf_append, silent, told]
  exact ⟨rfl, gone⟩

/-- if the link fails before that, they are told the failure -/
theorem onReplies_teardown_tells (plain : ∀ r ∈ rs, l.push? r = none)
    (more : c.received + rs.length < c.expected)
    (apart : ∀ other ∈ { l with waiting := rest }.commands, other.ticket ≠ c.ticket)
    (err : Error) :
    resultsOf c.ticket
      ((onReplies l.epoch rs (l.fronting c rest)).andThen (teardown err)).effects
        = [.error err] := by
  obtain ⟨link, silent⟩ := onReplies_of_short rest plain more
  have same : (rs.foldl Command.accept c).ticket = c.ticket := Command.ticket_foldl c rs
  have lost : ((l.fronting (rs.foldl Command.accept c) rest).commands.filter
      fun held => held.ticket = c.ticket) = [rs.foldl Command.accept c] := by
    rw [fronting, commands_of_command rfl, List.filter_cons, if_pos (decide_eq_true same)]
    exact congrArg _ (filter_ticket_eq_nil apart)
  rw [Turn.andThen_effects, resultsOf_append, silent, List.nil_append, link, resultsOf_teardown,
    lost]
  rfl

end
end Link

namespace Command
open Link

/-- **A command with several replies resolves once.**  It counts its replies down and is complete with
the last one it expects; what it resolves to is what its replies come to.  On a link where it waits
in front, whoever waits for it is told that result by the last of these replies, once and after
silence; if the link fails before, they are told its failure and nothing of the replies so far.
Either way the link holds it no more. -/
theorem completes_once {c : Command} (fresh : c.Fresh) {rs : List Reply}
    (full : rs.length = c.expected) :
    (∀ m, m ≤ c.expected →
      ((rs.take m).foldl accept c).remaining = c.expected - m ∧
        (((rs.take m).foldl accept c).complete = true ↔ m = c.expected)) ∧
    Total (rs.map c.worth) (c.answer rs) ∧
    ∀ (l : Link) (rest : List Waiter), l.waiting = .command c :: rest →
      (∀ other ∈ { l with waiting := rest }.commands, other.ticket ≠ c.ticket) →
      (∀ r ∈ rs, l.push? r = none) →
      (let done := onReplies l.epoch rs l
      resultsOf c.ticket done.effects = [c.answer rs] ∧
        ∀ held ∈ done.link.commands, held.ticket ≠ c.ticket) ∧
      ∀ m, m < c.expected → ∀ err : Error,
        let cut := (onReplies l.epoch (rs.take m) l).andThen (teardown err)
        resultsOf c.ticket cut.effects = [.error err] ∧
          ∀ held ∈ cut.link.commands, held.ticket ≠ c.ticket := by
  have length {m : Nat} (few : m ≤ c.expected) : (rs.take m).length = m := by
    rw [List.length_take, full]
    omega
  refine ⟨fun m few => ⟨?_, ?_⟩, total_answer fresh full, fun l rest front apart plain => ?_⟩
  · rw [remaining, expected_foldl, received_foldl, fresh.received, length few, Nat.zero_add]
  · rw [fresh.complete_foldl, length few, decide_eq_true_eq]
    omega
  rw [← fronting_of_front front]
  refine ⟨onReplies_tells fresh full plain apart, fun m few err =>
    ⟨onReplies_teardown_tells ?_ ?_ apart err, fun held inside => nomatch inside⟩⟩
  · exact fun r inside => plain r (List.mem_of_mem_take inside)
  · rw [fresh.received, length (Nat.le_of_lt few), Nat.zero_add]
    exact few

/-- of a number, a word that is none and a refusal, the word is the first to fail; after two replies
the link may still fail before the third -/
theorem completes_once_of_three :
    let c := (ofRequest 7 ⟨"ECHO", [], .integer, false⟩ .utf8).expecting 3
    let rs : List Reply := [.simple "12", .simple "x", .error "ERR no"]
    let l := { Link.start .command .default with phase := .connected, waiting := [.command c] }
    let why : Error := .conversion "Cannot parse integer from \"x\": invalid digit found in string"
    let lost : Error := .connection "Connection closed by server"
    (c.Fresh ∧ rs.length = c.expected ∧ l.waiting = [.command c] ∧ l.pending = [] ∧
      ∀ r ∈ rs, l.push? r = none) ∧
    ((rs.take 2).foldl accept c).remaining = 1 ∧
    Total [.ok (.int 12), .error why, .error (.server "ERR no")] (.error why) ∧
    resultsOf 7 (onReplies l.epoch rs l).effects = [.error why] ∧
    resultsOf 7 ((onReplies l.epoch (rs.take 2) l).andThen (teardown lost)).effects
      = [.error lost] := by
  intro c rs l why lost
  have fresh : c.Fresh := by decide
  have full : rs.length = c.expected := rfl
  have plain : ∀ r ∈ rs, l.push? r = none := fun _ _ => rfl
  have worths : rs.map c.worth = [.ok (.int 12), .error why, .error (.server "ERR no")] := by
    decide +kernel
  have answer : c.answer rs = .error why := by decide +kernel
  obtain ⟨counts, total, links⟩ := completes_once fresh full
  obtain ⟨told, cut⟩ := links l [] rfl (fun other inside => nomatch inside) plain
  rw [worths, answer] at total
  exact ⟨⟨fresh, full, rfl, rfl, plain⟩, (counts 2 (by decide)).1, total, answer ▸ told.1,
    (cut 2 (by decide) lost).1⟩

end Command
end RespLink
