import RespLink.Proofs.Conservation
import RespLink.Testbed.Session

/-!
# Futures

A caller waits for an operation; the links that it awaits report to it, each in its own time.  It
completes as soon as all of them have, with what the first report of each makes of it.

* `Effect.result?`   a command is done with, and how;
* `resultsOf`        what effects report to one operation;
* `joined_eq_error_iff`   whose failure the join of two results is;
* `Operation.Squares`   an operation holds what the links have reported, and is answered as soon
                     as it is ready;
* `World.inbox`, `World.link?`   a station seen from outside, and what each deed does to that;
* `Tallied`          all operations square with the reports; effects (`Tallied.told`), operations
                     that start (`Tallied.enter`) and a link at work (`Tallied.serve`) keep it so.
-/

namespace RespLink

/-- the ticket that is done with, and the result -/
def Effect.result? : Effect → Option (Ticket × Except Error Value)
  | resolved t result => some (t, result)
  | failed t err => some (t, .error err)
  | idle t => some (t, .ok .unit)
  | _ => none

theorem Effect.ended?_eq (e : Effect) : e.ended? = e.result?.map Prod.fst := by
  cases e <;> rfl

theorem filterMap_ended? (es : List Effect) :
    es.filterMap Effect.ended? = (es.filterMap Effect.result?).map Prod.fst := by
  rw [List.map_filterMap]
  exact List.filterMap_congr fun e _ => e.ended?_eq

/-- the second parts of the pairs under a key -/
def under {α : Type} (k : Nat) (ps : List (Nat × α)) : List α :=
  ps.filterMap fun p => if p.1 = k then some p.2 else none

section
variable {α : Type} {k : Nat} {ps : List (Nat × α)}

theorem under_append (k : Nat) (ps qs : List (Nat × α)) :
    under k (ps ++ qs) = under k ps ++ under k qs := List.filterMap_append

theorem under_cons (k : Nat) (p : Nat × α) (ps : List (Nat × α)) :
    under k (p :: ps) = (if p.1 = k then [p.2] else []) ++ under k ps := by
  rw [under, List.filterMap_cons]
  by_cases same : p.1 = k <;> simp [same, under]

theorem mem_under {a : α} : a ∈ under k ps ↔ (k, a) ∈ ps := by
  rw [under, List.mem_filterMap]
  constructor
  · rintro ⟨⟨_, _⟩, inside, found⟩
    split at found
    · next same =>
      cases same
      cases found
      exact inside
    · cases found
  · exact fun inside => ⟨_, inside, if_pos rfl⟩

theorem head?_under : (under k ps).head? = (ps.find? fun p => p.1 = k).map Prod.snd := by
  induction ps with
  | nil => rfl
  | cons p ps ih =>
    rw [under_cons]
    by_cases same : p.1 = k
    · rw [if_pos same, List.find?_cons_of_pos (by simpa using same)]
      rfl
    · rw [if_neg same, List.find?_cons_of_neg (by simpa using same)]
      exact ih

end

/-- what is reported to those who wait under a ticket -/
def resultsOf (t : Ticket) (es : List Effect) : List (Except Error Value) :=
  under t (es.filterMap Effect.result?)

theorem resultsOf_append (t : Ticket) (a b : List Effect) :
    resultsOf t (a ++ b) = resultsOf t a ++ resultsOf t b := by
  rw [resultsOf, List.filterMap_append, under_append]
  rfl

theorem resultsOf_result {x : Effect} {t : Ticket} {result : Except Error Value}
    (reports : x.result? = some (t, result)) (n : Nat) :
    resultsOf n [x] = if t = n then [result] else [] := by
  rw [resultsOf, List.filterMap_cons_some reports, under_cons]
  exact List.append_nil _

/-- the failure of the link for commands if it failed, else that of the other link -/
theorem Client.joined_eq_error_iff {α β : Type} (command : Except Error α)
    (pubsub : Except Error β) (err : Error) :
    joined command pubsub = .error err ↔
      command = .error err ∨ (∃ v, command = .ok v) ∧ pubsub = .error err := by
  cases command <;> simp [joined]

namespace Testbed

/-! ## one operation -/

/-- the form in which a caller gets a result -/
def Wanted.hand (wanted : Wanted) (result : Except Error Value) : Except Error Answer :=
  match wanted with
  | value => result.map .value
  | form answer => result.bind answer
  | acknowledgement => .ok .done

namespace Operation

/-- what a station has reported -/
def reports (o : Operation) (station : Nat) : List (Except Error Value) :=
  under station o.results

/-- the operation after one more report -/
def told (o : Operation) (station : Nat) (result : Except Error Value) : Operation :=
  { o with results := o.results ++ [(station, result)] }

section
variable {o : Operation} {station k : Nat} {result : Except Error Value}

theorem answer_eq (o : Operation) : o.answer = o.wanted.hand o.outcome := by
  rw [answer]
  cases o.wanted <;> rfl

theorem result?_eq (o : Operation) (station : Nat) :
    o.result? station = (o.reports station).head? := by
  rw [reports, head?_under]
  rfl

theorem reports_told :
    (o.told station result).reports k =
      o.reports k ++ if station = k then [result] else [] := by
  rw [reports, told, under_append, under_cons]
  exact congrArg _ (List.append_nil _)

/-- what a station has reported first stays -/
theorem result?_told (there : (o.result? k).isSome = true) :
    (o.told station result).result? k = o.result? k := by
  rw [result?_eq] at there
  obtain ⟨first, found⟩ := Option.isSome_iff_exists.mp there
  rw [result?_eq, result?_eq, reports_told, List.head?_append, found]
  rfl

theorem result?_of_ready (ready : o.ready = true) (awaited : k ∈ o.awaits) :
    (o.result? k).isSome = true :=
  List.all_eq_true.mp ready k awaited

theorem ready_told (ready : o.ready = true) : (o.told station result).ready = true := by
  refine List.all_eq_true.mpr fun k awaited => ?_
  have there := result?_of_ready ready awaited
  rw [result?_told there]
  exact there

/-- what comes once it is ready makes no difference -/
theorem answer_told (ready : o.ready = true) : (o.told station result).answer = o.answer := by
  have same : (o.told station result).outcome = o.outcome := by
    refine congrArg (List.foldl Client.joined (.ok Value.nil)) ?_
    exact List.filterMap_congr fun k awaited => result?_told (result?_of_ready ready awaited)
  rw [answer_eq, answer_eq, same]
  rfl

/-- what an operation holds, and the answers that were handed over for it: one as soon as it is
ready, and the same ever after -/
structure Squares (heard : Role → List (Except Error Value)) (answers : List (Except Error Answer))
    (o : Operation) : Prop where
  waits : o.cancelled = false
  kept : ∀ role, o.reports (Session.station role) = heard role
  done : ∀ answer, answer ∈ answers ↔ o.ready = true ∧ answer = o.answer

theorem station_inj {a b : Role} (h : Session.station a = Session.station b) : a = b := by
  cases a <;> cases b <;> first | rfl | cases h

theorem Squares.told {heard : Role → List (Except Error Value)}
    {answers : List (Except Error Answer)} (h : Squares heard answers o) (role : Role)
    (result : Except Error Value) :
    Squares (fun k => heard k ++ if k = role then [result] else [])
      (answers ++ if (o.told (Session.station role) result).ready
        then [(o.told (Session.station role) result).answer] else [])
      (o.told (Session.station role) result) where
  waits := h.waits
  kept k := by
    rw [reports_told, h.kept k]
    by_cases mine : k = role
    · rw [if_pos mine, if_pos (congrArg _ mine.symm)]
    · rw [if_neg mine, if_neg fun e => mine (station_inj e).symm]
  done answer := by
    rw [List.mem_append, h.done answer]
    constructor
    · rintro (⟨ready, rfl⟩ | new)
      · exact ⟨ready_told ready, (answer_told ready).symm⟩
      · split at new
        · next ready => exact ⟨ready, List.mem_singleton.mp new⟩
        · cases new
    · rintro ⟨ready, rfl⟩
      rw [if_pos ready]
      exact .inr List.mem_cons_self

/-- of a request to both links -/
theorem ready_iff_of_two {a b : Nat} (both : o.awaits = [a, b]) :
    o.ready = true ↔ (∃ first, o.result? a = some first) ∧ ∃ second, o.result? b = some second := by
  rw [ready, both]
  simp [Option.isSome_iff_exists]

theorem outcome_of_two {a b : Nat} (both : o.awaits = [a, b]) {first second : Except Error Value}
    (one : o.result? a = some first) (two : o.result? b = some second) :
    o.outcome = Client.joined first second := by
  rw [outcome, both, List.filterMap_cons_some one, List.filterMap_cons_some two]
  rfl

end
end Operation

/-! ## stations -/

namespace World

/-- what has reached a link and is not dealt with -/
def inbox (w : World) (station : Nat) : List Event :=
  ((w.stations[station]?).map Station.inbox).getD []

def link? (w : World) (station : Nat) : Option Link := (w.stations[station]?).map Station.link

section
variable {w : World} {station k : Nat} {e : Event}

theorem stations_post (w : World) (station : Nat) (e : Event) :
    (w.post station e).stations =
      w.stations.modify station fun s => { s with inbox := s.inbox ++ [e] } := by
  rw [post]
  split <;> rfl

theorem length_post (w : World) (station : Nat) (e : Event) :
    (w.post station e).stations.length = w.stations.length := by
  rw [stations_post, List.length_modify]

theorem operations_post (w : World) (station : Nat) (e : Event) :
    (w.post station e).operations = w.operations := by
  rw [post]
  split <;> rfl

theorem tally_post (w : World) (station : Nat) (e : Event) :
    (w.post station e).tally = w.tally := by
  rw [post]
  split <;> rfl

theorem link?_post (w : World) (station : Nat) (e : Event) (k : Nat) :
    (w.post station e).link? k = w.link? k := by
  rw [link?, link?, stations_post, List.getElem?_modify]
  cases w.stations[k]? with
  | none => rfl
  | some s =>
    show some (if station = k then _ else s : Station).link = _
    split <;> rfl

theorem inbox_post (here : (w.link? station).isSome = true) (k : Nat) :
    (w.post station e).inbox k = w.inbox k ++ if station = k then [e] else [] := by
  rw [inbox, inbox, stations_post, List.getElem?_modify]
  by_cases same : station = k
  · subst same
    rw [link?, Option.isSome_map] at here
    obtain ⟨s, found⟩ := Option.isSome_iff_exists.mp here
    rw [found, if_pos rfl]
    show (if station = station then _ else s : Station).inbox = _
    rw [if_pos rfl]
    rfl
  · simp only [if_neg same, List.append_nil]
    cases w.stations[k]? <;> rfl

/-- a list of events, each for a station -/
def postAll (parts : List (Nat × Event)) (w : World) : World :=
  parts.foldl (fun w (station, e) => w.post station e) w

/-- what one event leaves as it is, many do -/
theorem postAll_kept {β : Type} {f : World → β}
    (kept : ∀ (w : World) station e, f (w.post station e) = f w)
    (parts : List (Nat × Event)) (w : World) : f (w.postAll parts) = f w := by
  induction parts generalizing w with
  | nil => rfl
  | cons p parts ih => exact (ih _).trans (kept w p.1 p.2)

theorem length_postAll (parts : List (Nat × Event)) (w : World) :
    (w.postAll parts).stations.length = w.stations.length :=
  postAll_kept (f := fun w => w.stations.length) length_post parts w

theorem operations_postAll (parts : List (Nat × Event)) (w : World) :
    (w.postAll parts).operations = w.operations :=
  postAll_kept operations_post parts w

theorem tally_postAll (parts : List (Nat × Event)) (w : World) :
    (w.postAll parts).tally = w.tally :=
  postAll_kept tally_post parts w

theorem link?_postAll (parts : List (Nat × Event)) (w : World) (k : Nat) :
    (w.postAll parts).link? k = w.link? k :=
  postAll_kept (f := fun w => w.link? k) (fun w station e => link?_post w station e k) parts w

/-- each station gets its own, in their order -/
theorem inbox_postAll {parts : List (Nat × Event)}
    (here : ∀ p ∈ parts, (w.link? p.1).isSome = true) (k : Nat) :
    (w.postAll parts).inbox k =
      w.inbox k ++ under k parts := by
  induction parts generalizing w with
  | nil => exact (List.append_nil _).symm
  | cons p parts ih =>
    have later := ih (w := w.post p.1 p.2) fun q inside => by
      rw [link?_post]
      exact here q (List.mem_cons_of_mem p inside)
    rw [inbox_post (here p List.mem_cons_self), List.append_assoc, ← under_cons] at later
    exact later

/-! ## reports -/

/-- what the callers asked for, operation by operation -/
def asked (w : World) : List (Wanted × List Nat) := w.operations.map fun o => (o.wanted, o.awaits)

theorem finish_same (w : World) (n : Nat) (answer : Except Error Answer) :
    (w.finish n answer).stations = w.stations ∧ (w.finish n answer).operations = w.operations := by
  rw [finish]
  split
  · exact ⟨rfl, rfl⟩
  · split <;> exact ⟨rfl, rfl⟩

/-- whoever waits, waits for the same -/
theorem resolve_same (w : World) (station n : Nat) (result : Except Error Value) :
    (w.resolve station n result).stations = w.stations ∧
      (w.resolve station n result).asked = w.asked := by
  rw [resolve]
  split
  · exact ⟨rfl, rfl⟩
  · next o found =>
    have same : asked { w with operations := w.operations.set n (o.told station result) } =
        w.asked := by
      refine List.ext_getElem? fun i => ?_
      rw [asked, asked, List.getElem?_map, List.getElem?_map]
      by_cases mine : n = i
      · subst mine
        rw [List.getElem?_set_self (List.getElem?_eq_some_iff.mp found).1, found]
        rfl
      · rw [List.getElem?_set_ne mine]
    dsimp only
    split
    · have done := finish_same
        { w with operations := w.operations.set n (o.told station result) } n
        (o.told station result).answer
      exact ⟨done.1, (congrArg (List.map _) done.2).trans same⟩
    · exact ⟨rfl, same⟩

theorem effect_of_result {x : Effect} {t : Ticket} {result : Except Error Value}
    (h : x.result? = some (t, result)) : w.effect station x = w.resolve station t result := by
  cases x <;> cases h <;> rfl

/-- any other effect is nobody's result -/
theorem effect_of_none {x : Effect} (h : x.result? = none) (w : World) (station : Nat) :
    (w.effect station x).stations = w.stations ∧ (w.effect station x).operations = w.operations ∧
      (w.effect station x).tally.completed = w.tally.completed := by
  cases x with
  | resolved | failed | idle => cases h
  | _ => exact ⟨rfl, rfl, rfl⟩

theorem effect_same (w : World) (station : Nat) (x : Effect) :
    (w.effect station x).stations = w.stations ∧ (w.effect station x).asked = w.asked := by
  cases h : x.result? with
  | none =>
    obtain ⟨stations, operations, _⟩ := effect_of_none h w station
    exact ⟨stations, congrArg (List.map _) operations⟩
  | some p =>
    rw [effect_of_result h]
    exact resolve_same w station p.1 p.2

theorem effects_same (es : List Effect) (w : World) (station : Nat) :
    (es.foldl (effect station) w).stations = w.stations ∧
      (es.foldl (effect station) w).asked = w.asked := by
  induction es generalizing w with
  | nil => exact ⟨rfl, rfl⟩
  | cons x es ih =>
    obtain ⟨stations, asked⟩ := effect_same w station x
    exact ⟨(ih _).1.trans stations, (ih _).2.trans asked⟩

end

/-- every operation holds what each link has reported to it, and is answered once it is ready -/
structure Tallied (past : Role → List Effect) (w : World) : Prop where
  each : ∀ (n : Nat) (o : Operation), w.operations[n]? = some o →
    o.Squares (fun role => resultsOf n (past role)) (under n w.tally.completed)
  known : ∀ p ∈ w.tally.completed, p.1 < w.operations.length

section
variable {w v : World} {past : Role → List Effect} {role : Role}

theorem Tallied.of_same (h : w.Tallied past) (operations : v.operations = w.operations)
    (completed : v.tally.completed = w.tally.completed) : v.Tallied past := by
  obtain ⟨each, known⟩ := h
  rw [← operations, ← completed] at each known
  exact ⟨each, known⟩

/-- one effect later -/
def also (past : Role → List Effect) (role : Role) (es : List Effect) : Role → List Effect :=
  fun k => if k = role then past k ++ es else past k

theorem resultsOf_also (n : Nat) (past : Role → List Effect) (role : Role) (es : List Effect)
    (k : Role) :
    resultsOf n (also past role es k) =
      resultsOf n (past k) ++ if k = role then resultsOf n es else [] := by
  rw [also]
  split
  · exact resultsOf_append n _ _
  · exact (List.append_nil _).symm

/-- the operation of that number takes the result, and is completed if that makes it ready -/
theorem resolve_eq {n : Nat} {o : Operation} (found : w.operations[n]? = some o)
    (waits : o.cancelled = false) (station : Nat) (result : Except Error Value) :
    (w.resolve station n result).operations = w.operations.set n (o.told station result) ∧
      (w.resolve station n result).tally.completed = w.tally.completed ++
        if (o.told station result).ready then [(n, (o.told station result).answer)] else [] := by
  have inside : n < w.operations.length := (List.getElem?_eq_some_iff.mp found).1
  have there : (w.operations.set n (o.told station result))[n]? = some (o.told station result) :=
    List.getElem?_set_self inside
  have whole : w.resolve station n result =
      let v := { w with operations := w.operations.set n (o.told station result) }
      if (o.told station result).ready then v.finish n (o.told station result).answer else v := by
    rw [resolve, found]
    rfl
  have waits' : ¬ (o.told station result).cancelled = true := by
    show ¬ o.cancelled = true
    rw [waits]
    decide
  rw [whole]
  dsimp only
  split
  · rw [finish]
    dsimp only
    rw [there]
    dsimp only
    rw [if_neg waits']
    exact ⟨rfl, rfl⟩
  · exact ⟨rfl, (List.append_nil _).symm⟩

/-- one effect more, and this operation is not told anything -/
theorem Tallied.other (h : w.Tallied past) {n : Nat} {o : Operation}
    (there : w.operations[n]? = some o) {es : List Effect} (silent : resultsOf n es = [])
    {answers : List (Except Error Answer)} (same : answers = under n w.tally.completed) :
    o.Squares (fun k => resultsOf n (also past role es k)) answers := by
  have still : (fun k => resultsOf n (also past role es k)) = fun k => resultsOf n (past k) := by
    funext k
    rw [resultsOf_also, silent, ite_self, List.append_nil]
  rw [still, same]
  exact h.each n o there

theorem Tallied.resolve (h : w.Tallied past) {x : Effect} {t : Ticket}
    {result : Except Error Value} (reports : x.result? = some (t, result)) :
    (w.resolve (Session.station role) t result).Tallied (also past role [x]) := by
  have one := resultsOf_result reports
  cases found : w.operations[t]? with
  | none =>
    -- nobody ever waited under that ticket
    have same : w.resolve (Session.station role) t result = w := by
      rw [World.resolve, found]
    rw [same]
    refine ⟨fun n o there => h.other there ?_ rfl, h.known⟩
    rw [one, if_neg]
    rintro rfl
    rw [found] at there
    cases there
  | some o =>
    obtain ⟨operations, completed⟩ :=
      resolve_eq found (h.each t o found).waits (Session.station role) result
    have inside : t < w.operations.length := (List.getElem?_eq_some_iff.mp found).1
    refine ⟨fun n p there => ?_, fun p answered => ?_⟩
    · rw [operations] at there
      rw [completed, under_append]
      by_cases same : t = n
      · subst same
        rw [List.getElem?_set_self inside] at there
        cases there
        have told := (h.each t o found).told role result
        simp only [resultsOf_also, one, if_pos]
        split at told <;> rename_i ready
        · rw [if_pos ready, under_cons, if_pos rfl]
          exact told
        · rw [if_neg ready]
          exact told
      · rw [List.getElem?_set_ne same] at there
        refine h.other there (by rw [one, if_neg same]) ?_
        split
        · rw [under_cons, if_neg same]
          exact List.append_nil _
        · exact List.append_nil _
    · rw [operations, List.length_set]
      rw [completed] at answered
      rcases List.mem_append.mp answered with old | new
      · exact h.known p old
      · split at new
        · cases List.mem_singleton.mp new
          exact inside
        · cases new

/-- **Whatever a link does, its callers are told.** -/
theorem Tallied.told (h : w.Tallied past) (role : Role) (es : List Effect) :
    (es.foldl (effect (Session.station role)) w).Tallied (also past role es) := by
  induction es generalizing w past with
  | nil =>
    have same : also past role [] = past := by
      funext k
      rw [also, List.append_nil, ite_self]
    rw [same]
    exact h
  | cons x es ih =>
    have split : also past role (x :: es) = also (also past role [x]) role es := by
      funext k
      unfold also
      by_cases mine : k = role
      · rw [if_pos mine, if_pos mine, if_pos mine, List.append_assoc]
        rfl
      · rw [if_neg mine, if_neg mine, if_neg mine]
    rw [List.foldl_cons, split]
    refine ih ?_
    cases reports : x.result? with
    | some p =>
      rw [effect_of_result reports]
      exact h.resolve reports
    | none =>
      obtain ⟨_, operations, completed⟩ :=
        effect_of_none reports w (Session.station role)
      refine Tallied.of_same ⟨fun n o there => h.other there ?_ rfl, h.known⟩ operations completed
      rw [resultsOf, List.filterMap_cons_none reports]
      rfl

/-- somebody starts to wait, and nothing was reported to him before -/
theorem Tallied.enter (h : w.Tallied past) (wanted : Wanted) {awaits : List Nat}
    (waited : awaits ≠ []) (unheard : ∀ role, resultsOf w.operations.length (past role) = []) :
    (w.enter wanted awaits).1.Tallied past := by
  have grown : (w.enter wanted awaits).1.operations =
      w.operations ++ [(⟨wanted, awaits, [], false⟩ : Operation)] := rfl
  refine ⟨fun n o there => ?_, fun p answered => ?_⟩
  · rw [grown] at there
    rcases Nat.lt_or_ge n w.operations.length with old | new
    · exact h.each n o ((List.getElem?_append_left old).symm.trans there)
    · rw [List.getElem?_append_right new, List.getElem?_singleton] at there
      obtain ⟨first, same⟩ := Option.ite_none_right_eq_some.mp there
      cases same
      obtain rfl : n = w.operations.length := by omega
      refine ⟨rfl, fun role => (unheard role).symm, fun answer => ?_⟩
      -- nothing is answered under a number that is new, and it waits for somebody
      obtain ⟨station, awaited⟩ := List.exists_mem_of_ne_nil _ waited
      refine iff_of_false (fun answered => ?_) fun ⟨ready, _⟩ => ?_
      · exact Nat.lt_irrefl _ (h.known _ (mem_under.mp answered))
      · cases Operation.result?_of_ready ready awaited
  · have old := h.known p answered
    rw [grown, List.length_append]
    omega

/-! ## a link deals with its events -/

/-- the world when a link has dealt with its events, and has told nobody yet -/
def rested (w : World) (station : Nat) (l : Link) : World :=
  { w with stations := w.stations.set station ⟨l, []⟩ }

variable {station : Nat} {l : Link}

theorem serve_eq (held : w.link? station = some l) :
    w.serve station =
      (Link.run (w.inbox station) l).effects.foldl (effect station)
        (w.rested station (Link.run (w.inbox station) l).link) := by
  obtain ⟨s, found, rfl⟩ := Option.map_eq_some_iff.mp held
  have own : w.inbox station = s.inbox := by
    rw [inbox, found]
    rfl
  rw [own, serve, found]
  rfl

theorem stations_serve (held : w.link? station = some l) :
    (w.serve station).stations =
      w.stations.set station ⟨(Link.run (w.inbox station) l).link, []⟩ := by
  rw [serve_eq held, (effects_same _ _ _).1]
  rfl

theorem link?_serve (held : w.link? station = some l) (k : Nat) :
    (w.serve station).link? k =
      if station = k then some (Link.run (w.inbox station) l).link else w.link? k := by
  have there : station < w.stations.length := by
    obtain ⟨s, found, _⟩ := Option.map_eq_some_iff.mp held
    exact (List.getElem?_eq_some_iff.mp found).1
  rw [link?, stations_serve held, List.getElem?_set, if_pos there]
  split <;> rfl

theorem inbox_serve (held : w.link? station = some l) (k : Nat) :
    (w.serve station).inbox k = if station = k then [] else w.inbox k := by
  rw [inbox, stations_serve held, List.getElem?_set]
  split
  · split <;> rfl
  · rfl

theorem asked_serve (held : w.link? station = some l) : (w.serve station).asked = w.asked := by
  rw [serve_eq held, (effects_same _ _ _).2]
  rfl

theorem Tallied.serve (h : w.Tallied past) (held : w.link? (Session.station role) = some l) :
    (w.serve (Session.station role)).Tallied
      (also past role (Link.run (w.inbox (Session.station role)) l).effects) := by
  rw [serve_eq held]
  have rests : (w.rested (Session.station role)
      (Link.run (w.inbox (Session.station role)) l).link).Tallied past := h.of_same rfl rfl
  exact rests.told role _

end
end World
end Testbed
end RespLink
