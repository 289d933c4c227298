import RespLink.Command

/-!
# The ledger

Commands in the order in which they were written, and replies in the order in which they came,
settle every question of who takes which reply.  The LEDGER is that settlement.

* `ledger`        each command takes as many replies as it expects, gives its result, and then the
                  next command has its turn;
* `outstanding`   the commands that are not through, the first one with the replies it has;
* `ledger_put`, `ledger_take`   the ledger when a command is written and when a reply comes;
* `accepted_ledger`, `resolved_ledger`   the ledger by index;
* `ledger_groups`   the ledger when each command has a group of replies.
-/

namespace RespLink

inductive Entry where
  /-- a command takes a reply -/
  | took (t : Ticket) (reply : Reply)
  /-- a command resolves -/
  | gave (t : Ticket) (result : Except Error Value)

namespace Entry

def took? : Entry → Option (Ticket × Reply)
  | took t reply => some (t, reply)
  | gave .. => none

def gave? : Entry → Option (Ticket × Except Error Value)
  | gave t result => some (t, result)
  | took .. => none

end Entry

namespace Command

/-- what a command resolves to when these are its replies -/
def answer (c : Command) (replies : List Reply) : Except Error Value :=
  (replies.foldl accept c).result

theorem ticket_foldl (c : Command) (rs : List Reply) : (rs.foldl accept c).ticket = c.ticket := by
  induction rs generalizing c with
  | nil => rfl
  | cons r rs ih => rw [List.foldl_cons, ih, ticket_accept]

theorem expected_foldl (c : Command) (rs : List Reply) :
    (rs.foldl accept c).expected = c.expected := by
  induction rs generalizing c with
  | nil => rfl
  | cons r rs ih => rw [List.foldl_cons, ih, expected_accept]

theorem received_foldl (c : Command) (rs : List Reply) :
    (rs.foldl accept c).received = c.received + rs.length := by
  induction rs generalizing c with
  | nil => rfl
  | cons r rs ih =>
    rw [List.foldl_cons, ih, received_accept, List.length_cons]
    omega

/-- a fresh command is complete as soon as all expected replies are there -/
theorem Fresh.complete_foldl {c : Command} (h : c.Fresh) (rs : List Reply) :
    (rs.foldl accept c).complete = decide (c.expected ≤ rs.length) := by
  rw [complete, expected_foldl, received_foldl, h.received, Nat.zero_add]

end Command

/-- the replies that are expected in all -/
def slots : List Command → Nat
  | [] => 0
  | c :: cs => c.expected + slots cs

def outstanding : List Command → List Reply → List Command
  | [], _ => []
  | c :: cs, rs =>
    if c.expected ≤ rs.length then outstanding cs (rs.drop c.expected)
    else rs.foldl Command.accept c :: cs

def ledger : List Command → List Reply → List Entry
  | [], _ => []
  | c :: cs, rs =>
    (rs.take c.expected).map (.took c.ticket) ++
      if c.expected ≤ rs.length then
        .gave c.ticket (c.answer (rs.take c.expected)) :: ledger cs (rs.drop c.expected)
      else []

section
variable {c : Command} {cs rest : List Command} {rs : List Reply}

theorem slots_nil : slots [] = 0 := rfl

theorem slots_cons (c : Command) (cs : List Command) :
    slots (c :: cs) = c.expected + slots cs := rfl

theorem slots_append (cs cs' : List Command) : slots (cs ++ cs') = slots cs + slots cs' := by
  induction cs with
  | nil => rw [List.nil_append, slots_nil, Nat.zero_add]
  | cons c cs ih => rw [List.cons_append, slots_cons, slots_cons, ih, Nat.add_assoc]

theorem outstanding_of_full (full : c.expected ≤ rs.length) :
    outstanding (c :: cs) rs = outstanding cs (rs.drop c.expected) := if_pos full

theorem outstanding_of_short (short : rs.length < c.expected) :
    outstanding (c :: cs) rs = rs.foldl Command.accept c :: cs := if_neg (Nat.not_le.mpr short)

theorem ledger_of_full (full : c.expected ≤ rs.length) :
    ledger (c :: cs) rs = (rs.take c.expected).map (.took c.ticket) ++
      .gave c.ticket (c.answer (rs.take c.expected)) :: ledger cs (rs.drop c.expected) := by
  rw [ledger, if_pos full]

theorem ledger_of_short (short : rs.length < c.expected) :
    ledger (c :: cs) rs = rs.map (.took c.ticket) := by
  rw [ledger, if_neg (Nat.not_le.mpr short), List.append_nil,
    List.take_of_length_le (Nat.le_of_lt short)]

/-! ## before any reply -/

theorem outstanding_nil (fresh : ∀ c ∈ cs, c.Fresh) : outstanding cs [] = cs := by
  cases cs with
  | nil => rfl
  | cons c cs => exact outstanding_of_short (fresh c List.mem_cons_self).expected

theorem ledger_nil (fresh : ∀ c ∈ cs, c.Fresh) : ledger cs [] = [] := by
  cases cs with
  | nil => rfl
  | cons c cs => exact ledger_of_short (fresh c List.mem_cons_self).expected

/-! ## a command is written -/

/-- a command that is written last waits last -/
theorem outstanding_put (fresh : c.Fresh) (enough : rs.length ≤ slots cs) :
    outstanding (cs ++ [c]) rs = outstanding cs rs ++ [c] := by
  induction cs generalizing rs with
  | nil =>
    have none : rs = [] := List.length_eq_zero_iff.mp (Nat.le_zero.mp enough)
    rw [none]
    exact outstanding_of_short fresh.expected
  | cons c' cs ih =>
    rw [List.cons_append]
    by_cases full : c'.expected ≤ rs.length
    · rw [outstanding_of_full full, outstanding_of_full full]
      refine ih ?_
      rw [slots_cons] at enough
      rw [List.length_drop]
      omega
    · have short := Nat.not_le.mp full
      rw [outstanding_of_short short, outstanding_of_short short, List.cons_append]

theorem ledger_put (fresh : c.Fresh) (enough : rs.length ≤ slots cs) :
    ledger (cs ++ [c]) rs = ledger cs rs := by
  induction cs generalizing rs with
  | nil =>
    have none : rs = [] := List.length_eq_zero_iff.mp (Nat.le_zero.mp enough)
    rw [none]
    exact ledger_of_short fresh.expected
  | cons c' cs ih =>
    rw [List.cons_append]
    by_cases full : c'.expected ≤ rs.length
    · rw [ledger_of_full full, ledger_of_full full, ih]
      rw [slots_cons] at enough
      rw [List.length_drop]
      omega
    · have short := Nat.not_le.mp full
      rw [ledger_of_short short, ledger_of_short short]

/-! ## a reply comes -/

/-- as long as a command is outstanding there is room for a reply -/
theorem length_lt_slots (h : outstanding cs rs ≠ []) : rs.length < slots cs := by
  induction cs generalizing rs with
  | nil => exact absurd rfl h
  | cons c cs ih =>
    rw [slots_cons]
    by_cases full : c.expected ≤ rs.length
    · rw [outstanding_of_full full] at h
      have room := ih h
      rw [List.length_drop] at room
      omega
    · omega

/-- when no command is outstanding all expected replies have come -/
theorem length_eq_slots (enough : rs.length ≤ slots cs) (h : outstanding cs rs = []) :
    rs.length = slots cs := by
  induction cs generalizing rs with
  | nil => exact Nat.le_zero.mp enough
  | cons c cs ih =>
    rw [slots_cons] at enough ⊢
    by_cases full : c.expected ≤ rs.length
    · rw [outstanding_of_full full] at h
      have all := ih (by rw [List.length_drop]; omega) h
      rw [List.length_drop] at all
      omega
    · rw [outstanding_of_short (Nat.not_le.mp full)] at h
      cases h

/-- the first outstanding command takes the reply, and leaves when it is complete -/
theorem outstanding_take (fresh : ∀ c ∈ cs, c.Fresh) (h : outstanding cs rs = c :: rest)
    (r : Reply) :
    outstanding cs (rs ++ [r]) =
      if (c.accept r).complete = true then rest else c.accept r :: rest := by
  induction cs generalizing rs with
  | nil => cases h
  | cons c' cs ih =>
    by_cases full : c'.expected ≤ rs.length
    · rw [outstanding_of_full full] at h
      have full' : c'.expected ≤ (rs ++ [r]).length := by rw [List.length_append]; omega
      rw [outstanding_of_full full', List.drop_append_of_le_length full]
      exact ih (fun c hc => fresh c (List.mem_cons_of_mem _ hc)) h
    · have short := Nat.not_le.mp full
      rw [outstanding_of_short short] at h
      cases h
      have whole : (rs.foldl Command.accept c').accept r
          = (rs ++ [r]).foldl Command.accept c' := by
        rw [List.foldl_append]
        rfl
      rw [whole, (fresh c' List.mem_cons_self).complete_foldl]
      by_cases last : c'.expected ≤ (rs ++ [r]).length
      · have all : (rs ++ [r]).drop c'.expected = [] := by
          rw [List.drop_eq_nil_iff, List.length_append, List.length_singleton]
          omega
        rw [outstanding_of_full last, all, if_pos (decide_eq_true last)]
        exact outstanding_nil fun c hc => fresh c (List.mem_cons_of_mem _ hc)
      · rw [outstanding_of_short (Nat.not_le.mp last),
          if_neg fun h => last (of_decide_eq_true h)]

theorem ledger_take (fresh : ∀ c ∈ cs, c.Fresh) (h : outstanding cs rs = c :: rest) (r : Reply) :
    ledger cs (rs ++ [r]) = ledger cs rs ++ .took c.ticket r ::
      if (c.accept r).complete = true then [.gave c.ticket (c.accept r).result] else [] := by
  induction cs generalizing rs with
  | nil => cases h
  | cons c' cs ih =>
    by_cases full : c'.expected ≤ rs.length
    · rw [outstanding_of_full full] at h
      have full' : c'.expected ≤ (rs ++ [r]).length := by rw [List.length_append]; omega
      rw [ledger_of_full full', ledger_of_full full, List.drop_append_of_le_length full,
        List.take_append_of_le_length full,
        ih (fun c hc => fresh c (List.mem_cons_of_mem _ hc)) h, List.append_assoc]
      rfl
    · have short := Nat.not_le.mp full
      rw [outstanding_of_short short] at h
      cases h
      have whole : (rs.foldl Command.accept c').accept r
          = (rs ++ [r]).foldl Command.accept c' := by
        rw [List.foldl_append]
        rfl
      rw [whole, (fresh c' List.mem_cons_self).complete_foldl, ledger_of_short short,
        Command.ticket_foldl]
      by_cases last : c'.expected ≤ (rs ++ [r]).length
      · have fits : (rs ++ [r]).length = c'.expected := by
          rw [List.length_append, List.length_singleton] at last ⊢
          omega
        rw [ledger_of_full last, if_pos (decide_eq_true last), ← fits, List.take_length,
          List.drop_length, ledger_nil fun c hc => fresh c (List.mem_cons_of_mem _ hc),
          List.map_append, List.append_assoc]
        rfl
      · rw [ledger_of_short (Nat.not_le.mp last), if_neg fun h => last (of_decide_eq_true h),
          List.map_append]
        rfl

/-! ## by index -/

/-- a command whose last slot is not filled is outstanding -/
theorem exists_outstanding {i : Nat} (written : cs[i]? = some c)
    (short : rs.length < slots (cs.take i) + c.expected) :
    ∃ c' ∈ outstanding cs rs, c'.ticket = c.ticket := by
  induction cs generalizing rs i with
  | nil => cases written
  | cons c' cs ih =>
    by_cases full : c'.expected ≤ rs.length
    · rw [outstanding_of_full full]
      cases i with
      | zero =>
        cases written
        rw [List.take_zero, slots_nil] at short
        omega
      | succ i =>
        rw [List.take_succ_cons, slots_cons] at short
        exact ih written (by rw [List.length_drop]; omega)
    · rw [outstanding_of_short (Nat.not_le.mp full)]
      cases i with
      | zero =>
        cases written
        exact ⟨_, List.mem_cons_self, Command.ticket_foldl c rs⟩
      | succ i => exact ⟨c, List.mem_cons_of_mem _ (List.mem_of_getElem? written), rfl⟩

theorem took_of_took (t : Ticket) (rs : List Reply) :
    (rs.map (Entry.took t)).filterMap Entry.took? = rs.map fun r => (t, r) := by
  rw [List.filterMap_map, ← List.filterMap_eq_map]
  rfl

theorem gave_of_took (t : Ticket) (rs : List Reply) :
    (rs.map (Entry.took t)).filterMap Entry.gave? = [] := by
  rw [List.filterMap_map]
  exact List.filterMap_eq_nil_iff.mpr fun _ _ => rfl

theorem took_ledger_of_full (full : c.expected ≤ rs.length) :
    (ledger (c :: cs) rs).filterMap Entry.took? = ((rs.take c.expected).map fun r => (c.ticket, r))
      ++ (ledger cs (rs.drop c.expected)).filterMap Entry.took? := by
  rw [ledger_of_full full, List.filterMap_append, took_of_took]
  rfl

theorem took_ledger_of_short (short : rs.length < c.expected) :
    (ledger (c :: cs) rs).filterMap Entry.took? = rs.map fun r => (c.ticket, r) := by
  rw [ledger_of_short short, took_of_took]

/-- every reply is taken once, in order -/
theorem taken_ledger (enough : rs.length ≤ slots cs) :
    ((ledger cs rs).filterMap Entry.took?).map Prod.snd = rs := by
  have second (t : Ticket) (rs : List Reply) : (rs.map fun r => (t, r)).map Prod.snd = rs := by
    rw [List.map_map]
    exact List.map_id rs
  induction cs generalizing rs with
  | nil =>
    rw [List.length_eq_zero_iff.mp (Nat.le_zero.mp enough)]
    rfl
  | cons c cs ih =>
    by_cases full : c.expected ≤ rs.length
    · have left : (rs.drop c.expected).length ≤ slots cs := by
        rw [slots_cons] at enough
        rw [List.length_drop]
        omega
      rw [took_ledger_of_full full, List.map_append, second, ih left, List.take_append_drop]
    · rw [took_ledger_of_short (Nat.not_le.mp full), second]

/-- **A reply is accepted by the command whose slots it falls into.** -/
theorem accepted_ledger {i j : Nat} (written : cs[i]? = some c) (after : slots (cs.take i) ≤ j)
    (before : j < slots (cs.take i) + c.expected) :
    ((ledger cs rs).filterMap Entry.took?)[j]? = rs[j]?.map fun r => (c.ticket, r) := by
  induction cs generalizing rs i j with
  | nil => cases written
  | cons c' cs ih =>
    by_cases full : c'.expected ≤ rs.length
    · have size : ((rs.take c'.expected).map fun r => (c'.ticket, r)).length = c'.expected := by
        rw [List.length_map, List.length_take, Nat.min_eq_left full]
      rw [took_ledger_of_full full]
      cases i with
      | zero =>
        cases written
        have first : j < c.expected := by
          rw [List.take_zero, slots_nil] at before
          omega
        rw [List.getElem?_append_left (by rw [size]; exact first), List.getElem?_map,
          List.getElem?_take_of_lt first]
      | succ i =>
        rw [List.take_succ_cons, slots_cons] at after before
        rw [List.getElem?_append_right (by rw [size]; omega), size,
          ih written (by omega) (by omega), List.getElem?_drop,
          Nat.add_sub_cancel' (by omega)]
    · have short := Nat.not_le.mp full
      rw [took_ledger_of_short short, List.getElem?_map]
      cases i with
      | zero =>
        cases written
        rfl
      | succ i =>
        -- the first command still waits, so there is no such reply yet
        rw [List.take_succ_cons, slots_cons] at after
        have none : rs[j]? = none := List.getElem?_eq_none (by omega)
        rw [none]
        rfl

/-- **A command resolves when its last slot is filled**, from the replies in its own slots. -/
theorem resolved_ledger {i : Nat} (written : cs[i]? = some c) :
    ((ledger cs rs).filterMap Entry.gave?)[i]? =
      if slots (cs.take i) + c.expected ≤ rs.length then
        some (c.ticket, c.answer ((rs.drop (slots (cs.take i))).take c.expected))
      else none := by
  induction cs generalizing rs i with
  | nil => cases written
  | cons c' cs ih =>
    by_cases full : c'.expected ≤ rs.length
    · have gives : (ledger (c' :: cs) rs).filterMap Entry.gave?
          = (c'.ticket, c'.answer (rs.take c'.expected)) ::
            (ledger cs (rs.drop c'.expected)).filterMap Entry.gave? := by
        rw [ledger_of_full full, List.filterMap_append, gave_of_took]
        rfl
      rw [gives]
      cases i with
      | zero =>
        cases written
        rw [List.take_zero, slots_nil, Nat.zero_add, if_pos full]
        rfl
      | succ i =>
        rw [List.getElem?_cons_succ, ih written, List.take_succ_cons, slots_cons, List.length_drop,
          List.drop_drop]
        by_cases fits : slots (cs.take i) + c.expected ≤ rs.length - c'.expected
        · rw [if_pos fits, if_pos (by omega)]
        · rw [if_neg fits, if_neg (by omega)]
    · have short := Nat.not_le.mp full
      rw [ledger_of_short short, gave_of_took]
      have open' : ¬ slots ((c' :: cs).take i) + c.expected ≤ rs.length := by
        cases i with
        | zero =>
          cases written
          rw [List.take_zero, slots_nil, Nat.zero_add]
          exact full
        | succ i =>
          rw [List.take_succ_cons, slots_cons]
          omega
      rw [if_neg open']
      rfl

/-! ## by group -/

/-- each command takes the replies of its own group -/
def takings (cs : List Command) (groups : List (List Reply)) : List (Ticket × Reply) :=
  (List.zipWith (fun c group => group.map fun r => (c.ticket, r)) cs groups).flatten

/-- each command resolves from the replies of its own group -/
def results (cs : List Command) (groups : List (List Reply)) :
    List (Ticket × Except Error Value) :=
  List.zipWith (fun c group => (c.ticket, c.answer group)) cs groups

/-- **Nothing shifts from one command to another** if each command has a group of as many replies as
it expects and the groups come one after another. -/
theorem ledger_groups {groups : List (List Reply)}
    (sizes : groups.map List.length = cs.map Command.expected) (front : rs <+: groups.flatten) :
    (ledger cs rs).filterMap Entry.took? <+: takings cs groups ∧
      (ledger cs rs).filterMap Entry.gave? <+: results cs groups := by
  induction cs generalizing groups rs with
  | nil => exact ⟨List.nil_prefix, List.nil_prefix⟩
  | cons c cs ih =>
    cases groups with
    | nil => cases sizes
    | cons group groups =>
      obtain ⟨size, sizes⟩ := List.cons.inj sizes
      rw [List.flatten_cons] at front
      by_cases full : c.expected ≤ rs.length
      · -- the first group is there
        have own : group <+: rs :=
          List.prefix_of_prefix_length_le (List.prefix_append _ _) front (by rw [size]; exact full)
        obtain ⟨later, rfl⟩ := own
        have rest := ih sizes ((List.prefix_append_right_inj group).mp front)
        rw [ledger_of_full full, ← size, List.take_left, List.drop_left, List.filterMap_append,
          List.filterMap_append, took_of_took, gave_of_took]
        exact ⟨(List.prefix_append_right_inj _).mpr rest.1,
          (List.prefix_append_right_inj [_]).mpr rest.2⟩
      · have short := Nat.not_le.mp full
        have own : rs <+: group :=
          List.prefix_of_prefix_length_le front (List.prefix_append _ _) (by rw [size]; omega)
        rw [ledger_of_short short, took_of_took, gave_of_took]
        exact ⟨(own.map _).trans (List.prefix_append _ _), List.nil_prefix⟩

end
end RespLink
