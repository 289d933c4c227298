import RespLink.Proofs.Moves

/-!
# Sittings

What a link does falls into SITTINGS.  One lasts from the moment a socket comes into use until the
next socket does; before the first socket there is one that has no opening.

* `Sittings.of`     the sittings of a list of effects, which `whole_of` puts together again;
* `flatMap_all`     a view of effects, sitting by sitting;
* `Tracks`          a relation of sitting and link that every move keeps;
* `Moves.tracks`    it holds of the latest sitting, and held of every other one;
* `Moves.closes`    and of every other one it held when the next socket came into use.
-/

namespace RespLink

/-- a socket comes into use -/
structure Opening where
  epoch : Nat
  socket : Nat
  /-- the index of the Sentinel that led to it, if one did -/
  sentinel? : Option Nat
deriving DecidableEq, Repr

namespace Effect

def opening? : Effect → Option Opening
  | attached epoch socket sentinel? => some ⟨epoch, socket, sentinel?⟩
  | _ => none

/-- no connect attempt starts and no socket comes into use -/
def isCalm : Effect → Bool
  | dial .. | attached .. => false
  | _ => true

theorem opening?_of_isCalm {e : Effect} (h : e.isCalm = true) : e.opening? = none := by
  cases e <;> first | rfl | cases h

end Effect

structure Sitting where
  opening? : Option Opening
  /-- in order -/
  effects : List Effect

namespace Sitting

def extend (es : List Effect) (x : Sitting) : Sitting := { x with effects := x.effects ++ es }

theorem extend_cons (e : Effect) (es : List Effect) (x : Sitting) :
    x.extend (e :: es) = (x.extend [e]).extend es := by
  simp only [extend, List.append_assoc, List.singleton_append]

/-- with the effect that opens it -/
def whole (x : Sitting) : List Effect :=
  (x.opening?.toList.map fun o => .attached o.epoch o.socket o.sentinel?) ++ x.effects

theorem whole_extend (es : List Effect) (x : Sitting) : (x.extend es).whole = x.whole ++ es :=
  (List.append_assoc _ _ _).symm

end Sitting

structure Sittings where
  latest : Sitting
  /-- the others, later ones first -/
  past : List Sitting

namespace Sittings

def all (s : Sittings) : List Sitting := s.latest :: s.past

def note (s : Sittings) (e : Effect) : Sittings :=
  match e.opening? with
  | some o => ⟨⟨some o, []⟩, s.all⟩
  | none => ⟨s.latest.extend [e], s.past⟩

def notes (s : Sittings) (es : List Effect) : Sittings := es.foldl note s

def of (es : List Effect) : Sittings := notes ⟨⟨none, []⟩, []⟩ es

theorem notes_append (s : Sittings) (a b : List Effect) :
    s.notes (a ++ b) = (s.notes a).notes b := by
  rw [notes, List.foldl_append]
  rfl

theorem of_append (a b : List Effect) : of (a ++ b) = (of a).notes b := notes_append _ a b

theorem notes_cons_of_opening {e : Effect} {o : Opening} (h : e.opening? = some o)
    (s : Sittings) (es : List Effect) :
    s.notes (e :: es) = notes ⟨⟨some o, []⟩, s.all⟩ es := by
  show (s.note e).notes es = _
  rw [note, h]

/-- as long as no socket comes into use the latest sitting goes on -/
theorem notes_of_calm {es : List Effect} (calm : ∀ e ∈ es, e.opening? = none) (s : Sittings) :
    s.notes es = ⟨s.latest.extend es, s.past⟩ := by
  induction es generalizing s with
  | nil =>
    show s = ⟨⟨s.latest.opening?, s.latest.effects ++ []⟩, s.past⟩
    rw [List.append_nil]
  | cons e es ih =>
    have first : s.note e = ⟨s.latest.extend [e], s.past⟩ := by
      rw [note, calm e List.mem_cons_self]
    show (s.note e).notes es = _
    rw [first, ih fun e' he => calm e' (List.mem_cons_of_mem _ he)]
    show Sittings.mk ⟨_, (s.latest.effects ++ [e]) ++ es⟩ _ = _
    rw [List.append_assoc]
    rfl

/-- the latest sitting is opened by the last socket that came into use -/
theorem latest_of (es : List Effect) :
    (of es).latest.opening? = (es.filterMap Effect.opening?).getLast? := by
  have general (s : Sittings) : (s.notes es).latest.opening?
      = (es.filterMap Effect.opening?).getLast?.or s.latest.opening? := by
    induction es generalizing s with
    | nil => rfl
    | cons e es ih =>
      show ((s.note e).notes es).latest.opening? = _
      rw [ih, note, List.filterMap_cons]
      cases h : e.opening? with
      | none => rfl
      | some o =>
        show Option.or _ (some o) = _
        rw [List.getLast?_cons]
        cases (es.filterMap Effect.opening?).getLast? <;> rfl
  rw [of, general, Option.or_none]

/-! ## nothing is lost -/

/-- all effects in order -/
def whole (s : Sittings) : List Effect :=
  s.past.reverse.flatMap Sitting.whole ++ s.latest.whole

theorem whole_note (s : Sittings) (e : Effect) : (s.note e).whole = s.whole ++ [e] := by
  rw [note]
  cases h : e.opening? with
  | none =>
    show s.past.reverse.flatMap Sitting.whole ++ (s.latest.extend [e]).whole = _
    rw [Sitting.whole_extend, ← List.append_assoc]
    rfl
  | some o =>
    have opens : e = .attached o.epoch o.socket o.sentinel? := by
      cases e <;> cases h
      rfl
    show (s.latest :: s.past).reverse.flatMap Sitting.whole ++ _ = _
    rw [List.reverse_cons, List.flatMap_append, List.flatMap_singleton, opens]
    rfl

theorem whole_notes (s : Sittings) (es : List Effect) : (s.notes es).whole = s.whole ++ es := by
  induction es generalizing s with
  | nil => exact (List.append_nil _).symm
  | cons e es ih =>
    show ((s.note e).notes es).whole = _
    rw [ih, whole_note, List.append_assoc]
    rfl

/-- the sittings, put together again -/
theorem whole_of (es : List Effect) : (of es).whole = es := whole_notes _ es

theorem mem_whole {e : Effect} {s : Sittings} : e ∈ s.whole ↔ ∃ x ∈ s.all, e ∈ x.whole := by
  rw [whole, List.mem_append, List.mem_flatMap]
  constructor
  · rintro (⟨x, hx, he⟩ | he)
    · exact ⟨x, List.mem_cons_of_mem _ (List.mem_reverse.mp hx), he⟩
    · exact ⟨s.latest, List.mem_cons_self, he⟩
  · rintro ⟨x, hx, he⟩
    rcases List.mem_cons.mp hx with rfl | before
    · exact .inr he
    · exact .inl ⟨x, List.mem_reverse.mpr before, he⟩

/-- every other effect belongs to a sitting -/
theorem exists_mem_of {e : Effect} {es : List Effect} (he : e ∈ es) (calm : e.opening? = none) :
    ∃ x ∈ (of es).all, e ∈ x.effects := by
  rw [← whole_of es] at he
  obtain ⟨x, hx, inWhole⟩ := mem_whole.mp he
  refine ⟨x, hx, (List.mem_append.mp inWhole).resolve_left fun opens => ?_⟩
  obtain ⟨o, _, rfl⟩ := List.mem_map.mp opens
  cases calm

/-- a view that does not see sockets come into use, sitting by sitting -/
theorem flatMap_all {α : Type} {f : Effect → Option α}
    (unseen : ∀ epoch socket sentinel?, f (.attached epoch socket sentinel?) = none)
    (es : List Effect) :
    (of es).all.reverse.flatMap (fun x => x.effects.filterMap f) = es.filterMap f := by
  have each (x : Sitting) : x.whole.filterMap f = x.effects.filterMap f := by
    rw [Sitting.whole, List.filterMap_append, List.filterMap_map]
    cases x.opening? with
    | none => rfl
    | some o =>
      have none : (Option.some o).toList.filterMap
          (f ∘ fun o => .attached o.epoch o.socket o.sentinel?) = [] :=
        List.filterMap_cons_none (unseen _ _ _)
      rw [none, List.nil_append]
  have put : (of es).all.reverse.flatMap Sitting.whole = es := by
    rw [all, List.reverse_cons, List.flatMap_append, List.flatMap_singleton]
    exact whole_of es
  calc
    _ = (of es).all.reverse.flatMap fun x => x.whole.filterMap f := by simp only [each]
    _ = ((of es).all.reverse.flatMap Sitting.whole).filterMap f := by
      rw [List.filterMap_flatMap]
    _ = es.filterMap f := by rw [put]

end Sittings

/-! ## moves -/

namespace Link
section
variable {l m : Link} {ins : List Intake} {es : List Effect} {steps : List (Handshake × Bytes)}

theorem calm_failures (err : Error) (cs : List Command) :
    ∀ e ∈ failures err cs, e.isCalm = true := by
  intro e he
  obtain ⟨c, _, rfl⟩ := List.mem_map.mp he
  rfl

theorem calm_released (l : Link) :
    ∀ e ∈ l.socket?.toList.map (fun s => Effect.released s.number), e.isCalm = true := by
  intro e he
  obtain ⟨s, _, rfl⟩ := List.mem_map.mp he
  rfl

theorem calm_teardown (err : Error) (l : Link) :
    ∀ e ∈ (l.teardown err).effects, e.isCalm = true := by
  intro e he
  rw [teardown_effects] at he
  rcases List.mem_append.mp he with failed | released
  · exact calm_failures err _ e failed
  · exact calm_released l e released

theorem Onward.calm (h : Onward steps l es m) : ∀ e ∈ es, e.isCalm = true := by
  cases h with
  | ask =>
    intro e he
    rw [List.mem_singleton.mp he]
    rfl
  | join | halt =>
    intro e he
    cases he

/-- a connect attempt starts, or a socket comes into use, or neither -/
theorem Move.calm_or_opens (h : Move l ins es m) :
    (∀ e ∈ es, e.isCalm = true) ∨
    (ins = [.call] ∧ ∃ sentinels?, es = [.dial (l.epoch + 1) sentinels?]) ∨
    ∃ socket sentinel? err es', ins = [.socket socket sentinel?] ∧
      es = .attached l.epoch socket.number sentinel? :: (failures err l.waitingCommands ++ es') ∧
        l.phase = .connecting ∧
        Onward (l.config.greeting sentinel?) (l.holding socket) es' m := by
  cases h with
  | attach socket sentinel? err phase onward =>
    exact .inr (.inr ⟨_, _, err, _, rfl, rfl, phase, onward⟩)
  | dial phase =>
    rw [connect, if_pos phase]
    exact .inr (.inl ⟨rfl, _, rfl⟩)
  | advance h rest reply s plain phase held front passes onward =>
    left
    intro e he
    rcases List.mem_cons.mp he with rfl | later
    · rfl
    · exact onward.calm e later
  | lose err retry active =>
    left
    intro e he
    rw [fail_of_active active] at he
    rcases List.mem_append.mp he with torn | due
    · exact calm_teardown err l e torn
    · cases retry with
      | true =>
        rw [List.mem_singleton.mp due]
        rfl
      | false => cases due
  | push reply es known mails =>
    left
    intro e he
    obtain ⟨mailbox, push, rfl⟩ := mails e he
    rfl
  | part c rest reply err =>
    left
    intro e he
    rcases List.mem_cons.mp he with rfl | later
    · rfl
    · rcases List.mem_append.mp later with torn | resolved
      · exact calm_teardown err _ e torn
      · rw [List.mem_singleton.mp resolved]
        rfl
  | stop =>
    left
    intro e he
    rw [shutdown_effects] at he
    rcases List.mem_append.mp he with failed | released
    · exact calm_failures _ _ e failed
    · exact calm_released l e released
  | _ =>
    left
    simp [Effect.isCalm]

theorem Moves.calm (h : Moves l ins es m) (quiet : ∀ i ∈ ins, i.isQuiet = true) :
    ∀ e ∈ es, e.isCalm = true := by
  induction h with
  | none =>
    intro e he
    cases he
  | more _ last ih =>
    intro e he
    rcases List.mem_append.mp he with before | new
    · exact ih (fun i hi => quiet i (List.mem_append_left _ hi)) e before
    · rcases last.calm_or_opens with calm | ⟨rfl, _⟩ | ⟨socket, sentinel?, _, _, rfl, _⟩
      · exact calm e new
      · cases quiet .call (List.mem_append_right _ List.mem_cons_self)
      · cases quiet (.socket socket sentinel?) (List.mem_append_right _ List.mem_cons_self)

/-- a relation of sitting and link that moves keep, if their intakes are fit -/
structure Tracks (fit : Intake → Prop) (R : Sitting → Link → Prop) : Prop where
  extend {x : Sitting} {l m : Link} {ins : List Intake} {es : List Effect} (h : R x l)
    (move : Move l ins es m) (fits : ∀ i ∈ ins, fit i) (calm : ∀ e ∈ es, e.opening? = none) :
    R (x.extend es) m
  attach {x : Sitting} {l m : Link} {es : List Effect} (h : R x l) (socket : Socket)
    (sentinel? : Option Nat) (err : Error) (phase : l.phase = .connecting)
    (onward : Onward (l.config.greeting sentinel?) (l.holding socket) es m) :
    R ⟨some ⟨l.epoch, socket.number, sentinel?⟩, failures err l.waitingCommands ++ es⟩ m

/-- the relation holds of the latest sitting now, and of each other one it held once -/
def Tracked (R : Sitting → Link → Prop) (s : Sittings) (l : Link) : Prop :=
  R s.latest l ∧ ∀ x ∈ s.past, ∃ k, R x k

theorem Tracked.exists {R : Sitting → Link → Prop} {s : Sittings} (h : Tracked R s l)
    {x : Sitting} (hx : x ∈ s.all) : ∃ k, R x k := by
  rcases List.mem_cons.mp hx with rfl | before
  · exact ⟨l, h.1⟩
  · exact h.2 x before

/-- the latest sitting goes on, or the next one begins -/
theorem Move.goes_or_begins (h : Move l ins es m) (s : Sittings) :
    ((∀ e ∈ es, e.opening? = none) ∧ s.notes es = ⟨s.latest.extend es, s.past⟩) ∨
    ∃ socket sentinel? err es', l.phase = .connecting ∧
      Onward (l.config.greeting sentinel?) (l.holding socket) es' m ∧
        s.notes es =
          ⟨⟨some ⟨l.epoch, socket.number, sentinel?⟩, failures err l.waitingCommands ++ es'⟩,
            s.all⟩ := by
  have on (calm : ∀ e ∈ es, e.opening? = none) :
      (∀ e ∈ es, e.opening? = none) ∧ s.notes es = ⟨s.latest.extend es, s.past⟩ :=
    ⟨calm, Sittings.notes_of_calm calm s⟩
  rcases h.calm_or_opens with
    calm | ⟨_, _, rfl⟩ | ⟨socket, sentinel?, err, es', _, rfl, phase, onward⟩
  · exact .inl (on fun e he => Effect.opening?_of_isCalm (calm e he))
  · refine .inl (on fun e he => ?_)
    rw [List.mem_singleton.mp he]
    rfl
  · have calm : ∀ e ∈ failures err l.waitingCommands ++ es', e.opening? = none := by
      intro e he
      rcases List.mem_append.mp he with failed | later
      · exact Effect.opening?_of_isCalm (calm_failures err _ e failed)
      · exact Effect.opening?_of_isCalm (onward.calm e later)
    refine .inr ⟨socket, sentinel?, err, es', phase, onward, ?_⟩
    rw [Sittings.notes_cons_of_opening rfl, Sittings.notes_of_calm calm]
    rfl

theorem Move.tracks {fit : Intake → Prop} {R : Sitting → Link → Prop} (t : Tracks fit R)
    (h : Move l ins es m) (fits : ∀ i ∈ ins, fit i) {s : Sittings} (before : Tracked R s l) :
    Tracked R (s.notes es) m := by
  obtain ⟨calm, goes⟩ | ⟨socket, sentinel?, err, es', phase, onward, begins⟩ := h.goes_or_begins s
  · rw [goes]
    exact ⟨t.extend before.1 h fits calm, before.2⟩
  · rw [begins]
    exact ⟨t.attach before.1 socket sentinel? err phase onward, fun x hx => before.exists hx⟩

theorem Moves.tracks {fit : Intake → Prop} {R : Sitting → Link → Prop} (t : Tracks fit R)
    (h : Moves l ins es m) (fits : ∀ i ∈ ins, fit i) {s : Sittings} (before : Tracked R s l) :
    Tracked R (s.notes es) m := by
  induction h with
  | none => exact before
  | more _ last ih =>
    rw [Sittings.notes_append]
    exact last.tracks t (fun i hi => fits i (List.mem_append_right _ hi))
      (ih fun i hi => fits i (List.mem_append_left _ hi))

/-- a sitting is over when the next socket comes into use, while the link connects -/
theorem Move.closes {R : Sitting → Link → Prop} {Q : Sitting → Prop}
    (ended : ∀ x k, R x k → k.phase = .connecting → Q x) (h : Move l ins es m) {s : Sittings}
    (before : Tracked R s l) (past : ∀ x ∈ s.past, Q x) : ∀ x ∈ (s.notes es).past, Q x := by
  obtain ⟨_, goes⟩ | ⟨_, _, _, _, phase, _, begins⟩ := h.goes_or_begins s
  · rw [goes]
    exact past
  · rw [begins]
    intro x hx
    rcases List.mem_cons.mp hx with rfl | earlier
    · exact ended _ l before.1 phase
    · exact past x earlier

theorem Moves.closes {fit : Intake → Prop} {R : Sitting → Link → Prop} {Q : Sitting → Prop}
    (t : Tracks fit R) (ended : ∀ x k, R x k → k.phase = .connecting → Q x) (h : Moves l ins es m)
    (fits : ∀ i ∈ ins, fit i) {s : Sittings} (before : Tracked R s l) (past : ∀ x ∈ s.past, Q x) :
    ∀ x ∈ (s.notes es).past, Q x := by
  induction h with
  | none => exact past
  | more front last ih =>
    have fits' := fun i hi => fits i (List.mem_append_left _ hi)
    rw [Sittings.notes_append]
    exact last.closes ended (front.tracks t fits' before) (ih fits')

end
end Link
end RespLink
