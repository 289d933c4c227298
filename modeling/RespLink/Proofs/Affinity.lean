import RespLink.Proofs.Latecomers
import RespLink.Proofs.Searches

/-!
# The order of the Sentinels

A Sentinel comes to the front when the peer that it led to turns out to be a master.  Its index was
taken when the attempt started and is used two replies later; it is right because in the meantime
the order stays as it is.

* `Effect.promotion?`   the reply that verifies a master, and the index that goes with it;
* `Sentinels.after`     the order after some effects: one move to the front for each such reply;
* `Each`                what holds of every effect, in view of those before it;
* `Since`               no master was verified since the attempt of an epoch started;
* `Vetting`             who is not verified yet was searched for in the order as it still is; with
                        one lemma for moves and one for a socket that comes into use;
* `Ranks`               the order, its attempts and its promotions, over a run;
* `Scene.Earns`         attempts report what became of them, and nothing else;
* `sentinels_ranked`    what follows for every play.
-/

namespace RespLink

/-- the index of the Sentinel that led to this peer, if the reply says that the peer is a master -/
def Effect.promotion? : Effect → Option Nat
  | met (some (.handshake (.role i))) reply => if reply.isMaster then some i else none
  | _ => none

namespace Sentinels

/-- the order after these effects -/
def after (s : Sentinels) (es : List Effect) : Sentinels :=
  (es.filterMap Effect.promotion?).foldl (fun s i => s.moveToFront i) s

theorem after_append (s : Sentinels) (a b : List Effect) :
    s.after (a ++ b) = (s.after a).after b := by
  rw [after, List.filterMap_append, List.foldl_append]
  rfl

theorem after_of_none (s : Sentinels) {es : List Effect}
    (none : es.filterMap Effect.promotion? = []) : s.after es = s := by
  rw [after, none]
  rfl

theorem after_perm (s : Sentinels) (es : List Effect) : (s.after es).Perm s := by
  rw [after]
  induction es.filterMap Effect.promotion? generalizing s with
  | nil => exact .refl _
  | cons i rest ih => exact (ih (s.moveToFront i)).trans (moveToFront_perm i s)

end Sentinels

/-! ## effects and those before them -/

/-- the property holds of every effect, with all those before it -/
def Each (P : List Effect → Effect → Prop) (es : List Effect) : Prop :=
  ∀ before x later, es = before ++ x :: later → P before x

section
variable {P : List Effect → Effect → Prop} {a b es : List Effect}

theorem each_nil : Each P [] := by
  intro before x later split
  simp at split

theorem Each.append (first : Each P a) (second : Each (fun before => P (a ++ before)) b) :
    Each P (a ++ b) := by
  intro before x later split
  rcases List.append_eq_append_iff.mp split with ⟨more, rfl, rest⟩ | ⟨more, rfl, rest⟩
  · exact second more x later rest
  · cases more with
    | nil =>
      have whole := second [] x later rest.symm
      rwa [List.append_nil, List.append_nil] at whole
    | cons y more =>
      cases rest
      exact first before x more rfl

theorem each_singleton {x : Effect} (h : P [] x) : Each P [x] := by
  intro before y later split
  rcases List.cons_eq_append_iff.mp split with ⟨rfl, same⟩ | ⟨more, rfl, rest⟩
  · cases same
    exact h
  · simp at rest

theorem each_of_forall (h : ∀ x ∈ es, ∀ before, P before x) : Each P es := by
  rintro before x later rfl
  exact h x (List.mem_append_right _ List.mem_cons_self) before

end

/-! ## moves -/

namespace Link

theorem overlooks_promotion : Overlooks Effect.promotion? :=
  ⟨fun _ _ => rfl, fun _ => rfl, fun _ => rfl⟩

section
variable {l m : Link} {ins : List Intake} {es : List Effect} {steps : List (Handshake × Bytes)}

theorem Onward.promotes (h : Onward steps l es m) :
    es.filterMap Effect.promotion? = [] ∧ m.sentinels = l.sentinels := by
  cases h <;> exact ⟨rfl, rfl⟩

/-- no move verifies a master but the one that takes a good answer to `ROLE` -/
theorem Move.promotes (h : Move l ins es m) :
    es.filterMap Effect.promotion? = [] ∧ m.sentinels = l.sentinels ∨
    ∃ i rest reply es', l.waiting = .handshake (.role i) :: rest ∧ reply.isMaster = true ∧
      es = .met (some (.handshake (.role i))) reply :: es' ∧
      es'.filterMap Effect.promotion? = [] ∧ m.sentinels = l.sentinels.moveToFront i := by
  cases h with
  | dial phase =>
    rw [connect, if_pos phase]
    exact .inl ⟨rfl, rfl⟩
  | attach socket sentinel? err phase onward =>
    obtain ⟨none, same⟩ := onward.promotes
    refine .inl ⟨?_, same⟩
    rw [List.filterMap_cons_none rfl, List.filterMap_append,
      filterMap_failures overlooks_promotion.failed, none]
    rfl
  | advance h rest reply s plain phase held front passes onward =>
    obtain ⟨none, same⟩ := onward.promotes
    cases h with
    | role i => exact .inr ⟨i, rest, reply, _, front, passes, rfl, none, same⟩
    | auth sentinel? => exact .inl ⟨(List.filterMap_cons_none rfl).trans none, same⟩
    | select => exact .inl ⟨(List.filterMap_cons_none rfl).trans none, same⟩
  | balk h rest reply plain front fails =>
    refine .inl ⟨List.filterMap_cons_none ?_, rfl⟩
    cases h with
    | role i =>
      have other : reply.isMaster = false := fails
      rw [Effect.promotion?, other]
      rfl
    | _ => rfl
  | lose err retry active =>
    refine .inl ⟨overlooks_promotion.fail active err retry, ?_⟩
    rw [fail_of_active active]
    rfl
  | push reply es known mails => exact .inl ⟨filterMap_mails (fun _ _ => rfl) mails, rfl⟩
  | part c rest reply err =>
    refine .inl ⟨?_, rfl⟩
    rw [List.filterMap_cons_none rfl, List.filterMap_append, overlooks_promotion.teardown]
    rfl
  | stop => exact .inl ⟨overlooks_promotion.shutdown l, rfl⟩
  | _ => exact .inl ⟨rfl, rfl⟩

/-- the order of a link follows its effects -/
theorem Move.order (h : Move l ins es m) : m.sentinels = l.sentinels.after es := by
  rcases h.promotes with ⟨none, same⟩ | ⟨i, _, reply, es', _, master, rfl, none, moved⟩
  · rw [Sentinels.after_of_none _ none, same]
  · have first : (Effect.met (some (.handshake (.role i))) reply).promotion? = some i :=
      if_pos master
    rw [moved, Sentinels.after, List.filterMap_cons_some first, none]
    rfl

theorem Moves.order (h : Moves l ins es m) : m.sentinels = l.sentinels.after es := by
  induction h with
  | none => rfl
  | more _ last ih => rw [last.order, ih, Sentinels.after_append]

theorem calls_of_calm (calm : ∀ e ∈ es, e.isCalm = true) : es.filterMap Effect.call? = [] := by
  refine List.filterMap_eq_nil_iff.mpr fun e he => ?_
  have still := calm e he
  cases e <;> first | rfl | cases still

/-- a move that starts an attempt does nothing else -/
theorem Move.dials (h : Move l ins es m) :
    es.filterMap Effect.call? = [] ∨
      l.phase = .disconnected ∧ es = l.connect.effects ∧ m = l.connect.link := by
  rcases h.calm_or_opens with calm | ⟨rfl, _⟩ | ⟨_, _, err, es', _, rfl, _, onward⟩
  · exact .inl (calls_of_calm calm)
  · cases h with
    | dial phase free => exact .inr ⟨phase, rfl, rfl⟩
  · left
    rw [List.filterMap_cons_none rfl, List.filterMap_append,
      filterMap_failures overlooks_call.failed, calls_of_calm onward.calm]
    rfl

end
end Link

/-! ## vetting -/

/-- an attempt of this epoch was started with the order as it was then, and no master was verified
since: the order is still the same -/
def Since (s : Sentinels) (past : List Effect) (epoch : Nat) : Prop :=
  ∃ a b, past = a ++ .dial epoch (some (s.after a)) :: b ∧ b.filterMap Effect.promotion? = []

/-- the socket that came into use last, after these effects -/
def latest? (past : List Effect) : Option Opening := (past.filterMap Effect.opening?).getLast?

/-- a peer that a Sentinel led to: by this index, in an attempt of its epoch -/
structure Vetted (s : Sentinels) (past : List Effect) (o : Opening) : Prop where
  latest : latest? past = some o
  since : Since s past o.epoch

section
variable {s : Sentinels} {past es : List Effect} {l m : Link} {o : Opening} {epoch : Nat}
  {ins : List Intake} {steps : List (Handshake × Bytes)}

theorem Since.append (h : Since s past epoch) (none : es.filterMap Effect.promotion? = []) :
    Since s (past ++ es) epoch := by
  obtain ⟨a, b, rfl, quiet⟩ := h
  refine ⟨a, b ++ es, by rw [List.append_assoc]; rfl, ?_⟩
  rw [List.filterMap_append, quiet, none]
  rfl

theorem Since.after (h : Since s past epoch) : .dial epoch (some (s.after past)) ∈ past := by
  obtain ⟨a, b, rfl, quiet⟩ := h
  have same : s.after (a ++ .dial epoch (some (s.after a)) :: b) = s.after a := by
    rw [Sentinels.after_append, Sentinels.after_of_none]
    rw [List.filterMap_cons_none rfl]
    exact quiet
  rw [same]
  exact List.mem_append_right _ List.mem_cons_self

theorem Vetted.append (h : Vetted s past o) (none : es.filterMap Effect.promotion? = [])
    (calm : ∀ e ∈ es, e.opening? = .none) : Vetted s (past ++ es) o where
  latest := by
    have still : es.filterMap Effect.opening? = [] := List.filterMap_eq_nil_iff.mpr calm
    rw [latest?, List.filterMap_append, still, List.append_nil]
    exact h.latest
  since := h.since.append none

namespace Link

/-- where a link stands that may have a peer to verify -/
inductive Vetting (s : Sentinels) (past : List Effect) (l : Link) : Prop
  /-- nothing that waits has to do with it -/
  | clear (unasked : ∀ h, .handshake h ∈ l.waiting → h = .select)
    (since : l.phase = .connecting → l.socket? = none → Since s past l.epoch)
  /-- its role is asked for, or will be when the password is accepted -/
  | asked (o : Opening) (h : Handshake) (phase : l.phase = .connecting)
    (held : l.socket? ≠ none) (waiting : l.waiting = [.handshake h])
    (step : h = .auth o.sentinel? ∨ ∃ i, h = .role i ∧ o.sentinel? = some i)
    (vetted : Vetted s past o)

/-- the link has nothing to verify and is not in search of a peer -/
theorem vetting_of_idle (phase : l.phase ≠ .connecting) (waiting : l.waiting = []) :
    Vetting s past l :=
  .clear (fun h hh => by rw [waiting] at hh; cases hh) fun is => absurd is phase

/-- the next step, if there is one, has nothing to do with the role, or leads there -/
theorem Onward.vetting (onward : Onward steps l es m) (phase : l.phase = .connecting)
    (waiting : l.waiting = []) (held : l.socket? ≠ none)
    (next : ∀ h frame rest, steps = (h, frame) :: rest → h = .select ∨
      (h = .auth o.sentinel? ∨ ∃ i, h = .role i ∧ o.sentinel? = some i) ∧ Vetted s past o) :
    Vetting s past m := by
  cases onward with
  | @ask h frame rest _ s' =>
    have alone : (l.awaiting (.handshake h) s').waiting = [.handshake h] := by
      show l.waiting ++ _ = _
      rw [waiting]
      rfl
    rcases next h frame rest rfl with rfl | ⟨step, vetted⟩
    · refine .clear (fun h' hh => ?_) fun _ free => nomatch free
      rw [alone] at hh
      cases List.mem_singleton.mp hh
      rfl
    · exact .asked o h phase nofun alone step vetted
  | join => exact vetting_of_idle nofun waiting
  | halt =>
    exact .clear (fun h hh => by rw [waiting] at hh; cases hh) fun _ free => absurd free held

end Link
end

namespace Config
section
variable {config : Config} {sentinel? : Option Nat} {h : Handshake} {frame : Bytes}
  {rest : List (Handshake × Bytes)}

theorem selectSteps_head (e : config.selectSteps = (h, frame) :: rest) : h = .select := by
  unfold selectSteps at e
  cases database : config.database with
  | none => rw [database] at e; cases e
  | some db => rw [database] at e; cases e; rfl

theorem roleSteps_head (e : config.roleSteps sentinel? = (h, frame) :: rest) :
    h = .select ∨ ∃ i, h = .role i ∧ sentinel? = some i := by
  cases sentinel? with
  | none => exact .inl (selectSteps_head e)
  | some i => cases e; exact .inr ⟨i, rfl, rfl⟩

theorem greeting_head (e : config.greeting sentinel? = (h, frame) :: rest) :
    h = .select ∨ h = .auth sentinel? ∨ ∃ i, h = .role i ∧ sentinel? = some i := by
  unfold greeting at e
  cases password : config.password with
  | none => rw [password] at e; exact (roleSteps_head e).imp_right .inr
  | some word => rw [password] at e; cases e; exact .inr (.inl rfl)

end
end Config

namespace Link
section
variable {s : Sentinels} {past es : List Effect} {l m : Link} {o : Opening}
  {ins : List Intake} {steps : List (Handshake × Bytes)}

/-- the link goes on as before -/
theorem Vetting.still (h : Vetting s past l) (none : es.filterMap Effect.promotion? = [])
    (calm : ∀ e ∈ es, e.opening? = .none) (phase : m.phase = l.phase) (epoch : m.epoch = l.epoch)
    (waiting : m.waiting = l.waiting) (held : m.socket? = .none ↔ l.socket? = .none) :
    Vetting s (past ++ es) m := by
  cases h with
  | clear unasked since =>
    refine .clear (by rw [waiting]; exact unasked) fun now free => ?_
    rw [epoch]
    exact (since (phase ▸ now) (held.mp free)).append none
  | asked o h phase' held' waiting' step vetted =>
    exact .asked o h (phase.trans phase') (fun free => held' (held.mp free))
      (waiting.trans waiting') step (vetted.append none calm)

/-- a turn on a socket that is lost, or at rest -/
theorem Vetting.move (h : Vetting s past l) (order : l.sentinels = s.after past)
    (mode : l.config.sentinelMode = true) (move : Move l ins es m)
    (calm : ∀ e ∈ es, e.opening? = none) : Vetting s (past ++ es) m := by
  -- what is left of a queue of commands and `SELECT`
  have fewer {w : Waiter} {rest : List Waiter} (front : l.waiting = w :: rest)
      (unasked : ∀ h, .handshake h ∈ l.waiting → h = .select) :
      ∀ h, .handshake h ∈ rest → h = .select :=
    fun h hh => unasked h (by rw [front]; exact List.mem_cons_of_mem _ hh)
  have promotes := move.promotes
  cases move with
  | refuse | rest | keep | pass | hear => exact h.still rfl calm rfl rfl rfl .rfl
  | push reply es known mails =>
    exact h.still (filterMap_mails (fun _ _ => rfl) mails) calm rfl rfl rfl .rfl
  | drop => exact h.still rfl calm rfl rfl rfl .rfl
  | spoil f same => exact h.still rfl calm rfl rfl rfl Option.map_eq_none_iff
  | attach => cases calm _ List.mem_cons_self
  | lose err retry active =>
    rw [fail_of_active active]
    exact vetting_of_idle (fun is => by cases is) rfl
  | part c rest reply err => exact vetting_of_idle (fun is => by cases is) rfl
  | stop => exact vetting_of_idle (fun is => by cases is) rfl
  | dial phase free =>
    cases h with
    | clear unasked since =>
      rw [connect, if_pos phase, if_pos mode, order]
      exact .clear unasked fun _ _ => ⟨past, [], rfl, rfl⟩
    | asked o h phase' => rw [phase] at phase'; cases phase'
  | dispatch c rest s' phase held front =>
    cases h with
    | clear unasked since =>
      refine .clear (fun h hh => ?_) fun is => ?_
      · rcases List.mem_append.mp hh with old | new
        · exact unasked h old
        · cases List.mem_singleton.mp new
      · rw [show l.phase = .connecting from is] at phase
        cases phase
    | asked o h phase' => rw [phase] at phase'; cases phase'
  | balk h' rest reply plain front fails =>
    cases h with
    | clear unasked since =>
      refine .clear (fewer front unasked) fun now free => (since now free).append ?_
      rw [unasked h' (by rw [front]; exact List.mem_cons_self)]
      rfl
    | asked o h phase held waiting step vetted =>
      rw [front] at waiting
      cases waiting
      exact .clear (fun h hh => by cases hh) fun _ free => absurd free held
  | take c rest reply plain front more =>
    cases h with
    | clear unasked since =>
      refine .clear (fun h hh => ?_) fun now free => (since now free).append rfl
      rcases List.mem_cons.mp hh with first | later
      · cases first
      · exact fewer front unasked h later
    | asked o h phase held waiting => rw [front] at waiting; cases waiting
  | finish c rest reply plain front last =>
    cases h with
    | clear unasked since =>
      exact .clear (fewer front unasked) fun now free => (since now free).append rfl
    | asked o h phase held waiting => rw [front] at waiting; cases waiting
  | advance h' rest reply s' plain phase held front passes onward =>
    have some : l.socket? ≠ none := by rw [held]; exact Option.some_ne_none s'
    cases h with
    | clear unasked since =>
      cases unasked h' (by rw [front]; exact List.mem_cons_self)
      cases onward
      exact .clear (fewer front unasked) fun is => by cases is
    | asked o h phase' held' waiting step vetted =>
      rw [front] at waiting
      cases waiting
      rcases step with rfl | ⟨i, rfl, sentinel⟩
      · -- the password is accepted
        refine onward.vetting (o := o) phase rfl some fun h frame rest e => ?_
        refine (Config.roleSteps_head e).imp_right fun role => ⟨.inr role, ?_⟩
        exact vetted.append ((List.filterMap_cons_none rfl).trans onward.promotes.1) calm
      · exact onward.vetting (o := o) phase rfl some fun h frame rest e =>
          .inl (Config.selectSteps_head e)

/-- a socket comes into use: it is the outcome of the attempt that the link waits for -/
theorem Vetting.attach (h : Vetting s past l) (phase : l.phase = .connecting)
    (free : l.socket? = none) {socket : Socket} {sentinel? : Option Nat} {err : Error}
    (onward : Onward (l.config.greeting sentinel?) (l.holding socket) es m) :
    Vetting s (past ++ .attached l.epoch socket.number sentinel? ::
      (failures err l.waitingCommands ++ es)) m := by
  cases h with
  | asked o h phase' held => exact absurd free held
  | clear unasked since =>
    have silent : (failures err l.waitingCommands ++ es).filterMap Effect.opening? = [] := by
      refine List.filterMap_eq_nil_iff.mpr fun e he => ?_
      rcases List.mem_append.mp he with failed | later
      · exact Effect.opening?_of_isCalm (calm_failures err _ e failed)
      · exact Effect.opening?_of_isCalm (onward.calm e later)
    have opens : (Effect.attached l.epoch socket.number sentinel? ::
        (failures err l.waitingCommands ++ es)).filterMap Effect.opening? =
          [⟨l.epoch, socket.number, sentinel?⟩] := congrArg (_ :: ·) silent
    have none : (failures err l.waitingCommands ++ es).filterMap Effect.promotion? = [] := by
      rw [List.filterMap_append, filterMap_failures overlooks_promotion.failed, onward.promotes.1]
      rfl
    have vetted : Vetted s (past ++ .attached l.epoch socket.number sentinel? ::
        (failures err l.waitingCommands ++ es)) ⟨l.epoch, socket.number, sentinel?⟩ := by
      refine ⟨?_, (since phase free).append ((List.filterMap_cons_none rfl).trans none)⟩
      rw [latest?, List.filterMap_append, opens]
      exact List.getLast?_concat
    refine onward.vetting (o := ⟨l.epoch, socket.number, sentinel?⟩) phase rfl nofun ?_
    exact fun h frame rest e => (Config.greeting_head e).imp_right fun step => ⟨step, vetted⟩

/-! ## ranks -/

/-- the order of the Sentinels with its attempts and promotions, after these effects -/
structure Ranks (s : Sentinels) (past : List Effect) (l : Link) : Prop where
  mode : l.config.sentinelMode = true
  order : l.sentinels = s.after past
  vetting : Vetting s past l
  /-- every attempt starts with the order as it is -/
  dialled : Each (fun before x => ∀ epoch sentinels?, x = .dial epoch sentinels? →
    sentinels? = some (s.after before)) past
  /-- every master that is verified was searched for in the order as it is -/
  verified : Each (fun before x => ∀ i, x.promotion? = some i →
    ∃ o, Vetted s before o ∧ o.sentinel? = some i) past

theorem Ranks.step (h : Ranks s past l) (move : Move l ins es m)
    (vetting : Vetting s (past ++ es) m) : Ranks s (past ++ es) m where
  mode := by
    rw [move.same.2]
    exact h.mode
  order := by rw [move.order, h.order, Sentinels.after_append]
  vetting := vetting
  dialled := by
    refine h.dialled.append ?_
    rcases move.dials with none | ⟨phase, rfl, _⟩
    · refine each_of_forall fun x hx before epoch sentinels? is => ?_
      have silent := List.filterMap_eq_nil_iff.mp none x hx
      rw [is] at silent
      cases silent
    · rw [connect, if_pos phase, if_pos h.mode, h.order]
      refine each_singleton fun epoch sentinels? is => ?_
      cases is
      rw [List.append_nil]
  verified := by
    refine h.verified.append ?_
    rcases move.promotes with ⟨none, _⟩ | ⟨i, rest, reply, es', front, master, rfl, none, _⟩
    · refine each_of_forall fun x hx before i is => ?_
      rw [List.filterMap_eq_nil_iff.mp none x hx] at is
      cases is
    · refine Each.append (a := [_]) (each_singleton fun j is => ?_) ?_
      · have same : some i = some j := (if_pos master).symm.trans is
        cases same
        rw [List.append_nil]
        cases h.vetting with
        | clear unasked => cases unasked (.role i) (by rw [front]; exact List.mem_cons_self)
        | asked o h phase held waiting step vetted =>
          rw [front] at waiting
          cases waiting
          rcases step with is | ⟨j, is, sentinel⟩
          · cases is
          · cases is
            exact ⟨o, vetted, sentinel⟩
      · refine each_of_forall fun x hx before j is => ?_
        rw [List.filterMap_eq_nil_iff.mp none x hx] at is
        cases is

theorem Ranks.moves (h : Ranks s past l) (moves : Moves l ins es m)
    (calm : ∀ e ∈ es, e.opening? = none) : Ranks s (past ++ es) m := by
  induction moves with
  | none =>
    rw [List.append_nil]
    exact h
  | more _ last ih =>
    have before := ih fun e he => calm e (List.mem_append_left _ he)
    rw [← List.append_assoc]
    exact before.step last (before.vetting.move before.order before.mode last
      fun e he => calm e (List.mem_append_right _ he))

end
end Link

/-! ## plays -/

namespace Scene
section
variable {s : Scene} {e : Event} {order : Sentinels} {config : Config}

theorem ranks_start (role : Role) (mode : config.sentinelMode = true) :
    Link.Ranks config.sentinels [] (.start role config) where
  mode := mode
  order := by
    show (Sentinels.ofConfig? config).getD [] = _
    rw [Sentinels.ofConfig?, if_pos mode]
    rfl
  vetting := Link.vetting_of_idle nofun rfl
  dialled := each_nil
  verified := each_nil

theorem ranks_next (ranks : Link.Ranks order s.past s.link) (dated : s.Dated)
    (settled : s.link.Settled) (admits : s.Admits e) :
    Link.Ranks order (s.next e).past (s.next e).link := by
  show Link.Ranks order (s.past ++ (s.link.step e).effects) (s.link.step e).link
  rcases dated.opens_or_calm settled admits with ⟨n, i, rfl, running, phase, free, _⟩ | calm
  · have step : s.link.step (.attached s.link.epoch n i) = s.link.attach n i := by
      rw [Link.step_of_running running]
      exact if_pos ⟨rfl, phase⟩
    obtain ⟨es, m, t, onward, turn, moves, _⟩ := Link.attach_moves phase n i
    have none : s.link.socket? = none := Option.map_eq_none_iff.mp free
    have first := ranks.step (.attach s.link n i (.connection "Connection lost") phase onward)
      (ranks.vetting.attach phase none onward)
    rw [step, turn]
    show Link.Ranks order (s.past ++ (_ :: (_ ++ es) ++ t.effects)) t.link
    rw [← List.append_assoc]
    exact first.moves moves (moves.openings nofun)
  · obtain ⟨_, _, moves, _⟩ := Link.step_leads settled e
    exact ranks.moves moves calm

/-- the attempt of this epoch reports what became of it -/
def Earns (config : Config) (s : Scene) (e : Event) : Prop :=
  ∀ epoch outcome, e = Outcome.event epoch outcome → ∃ sentinels? signals,
    .dial epoch sentinels? ∈ s.past ∧
      Attempt.after config sentinels? signals = .ended outcome

/-- all attempts do, in all these events -/
def Earned (config : Config) : Scene → List Event → Prop
  | _, [] => True
  | s, e :: rest => s.Earns config e ∧ Earned config (s.next e) rest

/-- the socket is what became of the attempt of its epoch -/
def Yielded (config : Config) (s : Scene) (o : Opening) : Prop :=
  ∃ sentinels? signals socket, .dial o.epoch sentinels? ∈ s.past ∧ o.socket = socket.number ∧
    Attempt.after config sentinels? signals = .ended (.attached socket o.sentinel?)

/-- every socket that came into use is -/
def Owned (config : Config) (s : Scene) : Prop := ∀ o ∈ s.openings, s.Yielded config o

theorem Owned.next (owned : s.Owned config) (dated : s.Dated) (settled : s.link.Settled)
    (admits : s.Admits e) (earns : s.Earns config e) : (s.next e).Owned config := by
  -- what was dialled before is still known
  have keeps {o : Opening} (h : s.Yielded config o) : (s.next e).Yielded config o := by
    obtain ⟨sentinels?, signals, socket, dialled, same, ended⟩ := h
    exact ⟨sentinels?, signals, socket, List.mem_append_left _ dialled, same, ended⟩
  intro o ho
  rcases dated.opens_or_calm settled admits with ⟨n, i, rfl, running, phase, _⟩ | calm
  · obtain ⟨es, effects, calm, _⟩ := step_attached running phase n i
    rw [openings_next_of_attached effects calm] at ho
    rcases List.mem_append.mp ho with before | new
    · exact keeps (owned o before)
    · rw [List.mem_singleton.mp new]
      obtain ⟨sentinels?, signals, dialled, ended⟩ := earns _ (.attached n i) rfl
      exact keeps ⟨sentinels?, signals, n, dialled, rfl, ended⟩
  · rw [openings_next_of_calm calm] at ho
    exact keeps (owned o ho)

/-- what is kept in every play whose attempts report what became of them -/
theorem ranks_run {events : List Event} (ranks : Link.Ranks order s.past s.link) (dated : s.Dated)
    (settled : s.link.Settled) (owned : s.Owned config) (plays : s.Plays events)
    (earned : s.Earned config events) :
    Link.Ranks order (s.run events).past (s.run events).link ∧ (s.run events).Owned config := by
  induction events generalizing s with
  | nil => exact ⟨ranks, owned⟩
  | cons e rest ih =>
    obtain ⟨_, _, _, settled'⟩ := Link.step_leads settled e
    exact ih (ranks_next ranks dated settled plays.1) (dated.next settled plays.1) settled'
      (owned.next dated settled plays.1 earned.1) plays.2 earned.2

/-- an epoch belongs to one attempt -/
theorem Dated.eq_of_dial (dated : s.Dated) {epoch : Nat} {a b : Option Sentinels}
    (ha : .dial epoch a ∈ s.past) (hb : .dial epoch b ∈ s.past) : a = b := by
  have once : (s.past.filterMap Effect.call?).Nodup :=
    dated.rising.imp fun lt => Nat.ne_of_lt lt
  cases Link.eq_of_nodup_filterMap once ha hb rfl rfl
  rfl

end

/-- **The Sentinel that led to a master is asked first.**  In every play with Sentinels whose
attempts report what became of them, the order is a permutation of the configured Sentinels and
changes by nothing but a reply that verifies a master.  When such a reply comes, the index that goes
with it is that of the socket in use; its attempt went through the Sentinels in the order as it still
is, and the one with that index reported the peer.  It is moved to the front and the others
keep their order, and the next attempt, unless a master is verified before, dials it first. -/
theorem sentinels_ranked (role : Role) (config : Config) (mode : config.sentinelMode = true)
    (events : List Event) (plays : (start role config).Plays events)
    (earned : (start role config).Earned config events) :
    let s := (start role config).run events
    s.link.sentinels.Perm config.sentinels ∧
    s.link.sentinels = Sentinels.after config.sentinels s.past ∧
    (∀ e, (s.link.step e).link.sentinels = s.link.sentinels.after (s.link.step e).effects) ∧
    ∀ before x later i, s.past = before ++ x :: later → x.promotion? = some i →
      let list := Sentinels.after config.sentinels before
      ∃ o signals socket sentinel peer, latest? before = some o ∧ o.sentinel? = some i ∧
        .dial o.epoch (some list) ∈ before ∧ o.socket = socket.number ∧
        Attempt.after config (some list) signals = .ended (.attached socket (some i)) ∧
        Attempt.Led config list signals socket i sentinel peer ∧
        Sentinels.after config.sentinels (before ++ [x]) = sentinel :: list.eraseIdx i ∧
        ∀ between epoch sentinels? rest, later = between ++ .dial epoch sentinels? :: rest →
          between.filterMap Effect.promotion? = [] →
            sentinels? = some (sentinel :: list.eraseIdx i) ∧
              (Attempt.start config sentinels?).2 =
                [.limit config.sentinelTimeout, .dial sentinel] := by
  intro s
  have settled := Link.settled_start role config
  have dated : s.Dated := (dated_start role config).run settled plays
  obtain ⟨ranks, owned⟩ : Link.Ranks config.sentinels s.past s.link ∧ s.Owned config :=
    ranks_run (ranks_start role mode) (dated_start role config) settled nofun plays earned
  refine ⟨?_, ranks.order, fun e => ?_, ?_⟩
  · rw [ranks.order]
    exact Sentinels.after_perm _ _
  · obtain ⟨_, ⟨_, settled'⟩, _⟩ := Link.run_leads settled events
    have same : s.link = (Link.run events (.start role config)).link :=
      (run_eq (start role config) events).1
    rw [← same] at settled'
    obtain ⟨_, _, moves, _⟩ := Link.step_leads settled' e
    exact moves.order
  · intro before x later i split verifies list
    obtain ⟨o, vetted, index⟩ := ranks.verified before x later split i verifies
    have dialled : .dial o.epoch (some list) ∈ before := vetted.since.after
    have inPast {y : Effect} (hy : y ∈ before) : y ∈ s.past := by
      rw [split]
      exact List.mem_append_left _ hy
    obtain ⟨y, hy, opens⟩ := List.mem_filterMap.mp (List.mem_of_getLast? vetted.latest)
    obtain ⟨sentinels?, signals, socket, dialled', same, ended⟩ :=
      owned o (List.mem_filterMap.mpr ⟨y, inPast hy, opens⟩)
    cases dated.eq_of_dial dialled' (inPast dialled)
    rw [index] at ended
    obtain ⟨_, sentinel, peer, is, led⟩ := Attempt.led_of_attached ended
    cases is
    have moved : Sentinels.after config.sentinels (before ++ [x])
        = sentinel :: list.eraseIdx i := by
      rw [Sentinels.after_append, Sentinels.after, List.filterMap_cons_some verifies]
      show list.moveToFront i = _
      rw [Sentinels.moveToFront, led.here]
    refine ⟨o, signals, socket, sentinel, peer, vetted.latest, index, dialled, same, ended, led,
      moved, ?_⟩
    intro between epoch sentinels? rest next quiet
    have whole : s.past = ((before ++ [x]) ++ between) ++ .dial epoch sentinels? :: rest := by
      rw [split, next]
      simp
    have asked := ranks.dialled _ _ _ whole epoch sentinels? rfl
    rw [Sentinels.after_append, Sentinels.after_of_none _ quiet, moved] at asked
    rw [asked]
    exact ⟨rfl, Attempt.start_some config sentinel _⟩

/-- of three Sentinels the first cannot be reached, and the second leads to a master; when the peer
closes the socket, the next attempt starts with the second -/
theorem sentinels_ranked_of_second :
    let s1 : Endpoint := ⟨"s1", 26379⟩
    let s2 : Endpoint := ⟨"s2", 26379⟩
    let s3 : Endpoint := ⟨"s3", 26379⟩
    let config := Config.default.withSentinel "main" [s1, s2, s3]
    let ping (t : Ticket) := Command.ofRequest t (Request.ofVerb "PING") .utf8
    let events : List Event := [.send (ping 1), .attached 1 (.fresh 7) (some 1),
      .data 1 (Utf8.encode "*1\r\n$6\r\nmaster\r\n"), .closed 1, .send (ping 2)]
    let s := (start .command config).run events
    s.link.sentinels.Perm [s1, s2, s3] ∧ s.link.sentinels = [s2, s1, s3] ∧
      ∃ signals socket peer, Attempt.Led config [s1, s2, s3] signals socket 1 s2 peer := by
  intro s1 s2 s3 config ping events s
  have plays : (start .command config).Plays events :=
    ⟨Command.fresh_ofRequest _ _ _, List.mem_singleton.mpr rfl, ⟨⟨1, 7, some 1⟩, by decide, rfl⟩,
      ⟨⟨1, 7, some 1⟩, by decide +kernel, rfl⟩, Command.fresh_ofRequest _ _ _, trivial⟩
  have earned : (start .command config).Earned config events := by
    refine ⟨?_, ?_, ?_, ?_, ?_, trivial⟩
    · rintro epoch (_ | _) is <;> cases is
    · rintro epoch (_ | _) is <;> cases is
      refine ⟨some [s1, s2, s3], [.refused ⟨"ConnectionRefused", "connection refused"⟩,
        .connected (.fresh 5), .heard (Utf8.encode "*2\r\n$2\r\nm1\r\n$4\r\n6379\r\n"),
        .connected (.fresh 7)],
        List.mem_singleton.mpr rfl, ?_⟩
      exact Attempt.outcome?_eq_some_iff.mp (by decide +kernel)
    · rintro epoch (_ | _) is <;> cases is
    · rintro epoch (_ | _) is <;> cases is
    · rintro epoch (_ | _) is <;> cases is
  obtain ⟨perm, _, _, verified⟩ := sentinels_ranked .command config (by decide) events plays earned
  have one : s.past.filterMap Effect.promotion? = [1] := by decide +kernel
  obtain ⟨before, x, later, split, none, verifies, _⟩ := List.filterMap_eq_cons_iff.mp one
  obtain ⟨o, signals, socket, sentinel, peer, _, _, _, _, _, led, _⟩ :=
    verified before x later 1 split verifies
  rw [Sentinels.after_of_none _ (List.filterMap_eq_nil_iff.mpr none)] at led
  have second : sentinel = s2 := Option.some.inj led.here.symm
  rw [second] at led
  exact ⟨perm, by decide +kernel, signals, socket, peer, led⟩

end Scene
end RespLink
