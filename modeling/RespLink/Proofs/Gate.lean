import RespLink.Proofs.Hearing

/-!
# The gate of the handshake

On each socket the steps of the handshake come first, one after another, each answered well before
the next one is written; commands are written only once no step is left.

* `Exchange`   what passes on a socket, pushes apart;
* `dialogue`   steps, each with the reply that it got;
* `Gate`       what may pass on a socket: a dialogue of the first steps, then the `Tail`;
* `Opened`     a dialogue of all steps, then commands and replies;
* `Stands`     how far the latest sitting is, against phase and queue of the link;
* `gate_of_run`   every sitting of every run keeps to the gate.
-/

namespace RespLink

/-! ## exchanges -/

inductive Exchange where
  /-- a frame, and what awaits its reply -/
  | sent (w : Waiter) (frame : Bytes)
  | got (reply : Reply)

namespace Exchange

def isGot : Exchange → Bool
  | got _ => true
  | sent .. => false

/-- a reply, or a command in its own frame -/
def isTalk : Exchange → Bool
  | got _ => true
  | sent (.command c) frame => frame = c.frame
  | sent (.handshake _) _ => false

def reply? : Exchange → Option Reply
  | got reply => some reply
  | sent .. => none

theorem isTalk_of_isGot {x : Exchange} (h : x.isGot = true) : x.isTalk = true := by
  cases x <;> first | rfl | cases h

end Exchange

def Effect.exchange? : Effect → Option Exchange
  | wrote _ w frame => some (.sent w frame)
  | met _ reply => some (.got reply)
  | _ => none

def Sitting.exchanges (x : Sitting) : List Exchange := x.effects.filterMap Effect.exchange?

theorem Sitting.exchanges_extend (es : List Effect) (x : Sitting) :
    (x.extend es).exchanges = x.exchanges ++ es.filterMap Effect.exchange? :=
  List.filterMap_append

/-- what is got are the replies that meet the link -/
theorem Sitting.reply?_exchanges (x : Sitting) :
    x.exchanges.filterMap Exchange.reply? = x.replies := by
  rw [exchanges, List.filterMap_filterMap]
  refine congrArg (List.filterMap · x.effects) (funext fun e => ?_)
  cases e <;> rfl

/-! ## the gate -/

def dialogue (done : List ((Handshake × Bytes) × Reply)) : List Exchange :=
  done.flatMap fun d => [.sent (.handshake d.1.1) d.1.2, .got d.2]

/-- what follows the dialogue when these steps are left -/
inductive Tail : List (Handshake × Bytes) → List Exchange → Prop
  | talk {xs} (talk : ∀ x ∈ xs, x.isTalk = true) : Tail [] xs
  /-- the next step was not written, and nothing was -/
  | silent {todo xs} (silent : ∀ x ∈ xs, x.isGot = true) : Tail todo xs
  /-- the next step is written, and nothing after it -/
  | asked {h frame todo xs} (silent : ∀ x ∈ xs, x.isGot = true) :
    Tail ((h, frame) :: todo) (.sent (.handshake h) frame :: xs)

def Gate (steps : List (Handshake × Bytes)) (xs : List Exchange) : Prop :=
  ∃ done todo tail, steps = done.map Prod.fst ++ todo ∧ (∀ d ∈ done, d.1.1.passes d.2 = true) ∧
    xs = dialogue done ++ tail ∧ Tail todo tail

def Opened (steps : List (Handshake × Bytes)) (xs : List Exchange) : Prop :=
  ∃ done talk, steps = done.map Prod.fst ∧ (∀ d ∈ done, d.1.1.passes d.2 = true) ∧
    xs = dialogue done ++ talk ∧ ∀ x ∈ talk, x.isTalk = true

section
variable {steps todo : List (Handshake × Bytes)} {xs ys : List Exchange}

theorem dialogue_append (a b : List ((Handshake × Bytes) × Reply)) :
    dialogue (a ++ b) = dialogue a ++ dialogue b := List.flatMap_append

/-- a dialogue holds steps of the handshake only -/
theorem command_not_mem_dialogue (done : List ((Handshake × Bytes) × Reply)) (c : Command)
    (frame : Bytes) : .sent (.command c) frame ∉ dialogue done := by
  intro inside
  obtain ⟨d, _, hd⟩ := List.mem_flatMap.mp inside
  simp at hd

theorem Opened.gate (h : Opened steps xs) : Gate steps xs := by
  obtain ⟨done, talk, all, passes, split, commands⟩ := h
  exact ⟨done, [], talk, by rw [List.append_nil]; exact all, passes, split, .talk commands⟩

theorem Opened.append (h : Opened steps xs) (talk : ∀ y ∈ ys, y.isTalk = true) :
    Opened steps (xs ++ ys) := by
  obtain ⟨done, before, all, passes, rfl, commands⟩ := h
  refine ⟨done, before ++ ys, all, passes, List.append_assoc _ _ _, fun x hx => ?_⟩
  exact (List.mem_append.mp hx).elim (commands x) (talk x)

/-- a command goes out in its own frame -/
theorem Opened.own_frame (h : Opened steps xs) {c : Command} {frame : Bytes}
    (written : .sent (.command c) frame ∈ xs) : frame = c.frame := by
  obtain ⟨done, talk, _, _, rfl, commands⟩ := h
  rcases List.mem_append.mp written with early | late
  · exact absurd early (command_not_mem_dialogue done c frame)
  · exact of_decide_eq_true (commands _ late)

/-- replies may come at any time -/
theorem Tail.append (h : Tail todo xs) (silent : ∀ y ∈ ys, y.isGot = true) :
    Tail todo (xs ++ ys) := by
  cases h with
  | talk before =>
    refine .talk fun x hx => ?_
    exact (List.mem_append.mp hx).elim (before x) fun new => Exchange.isTalk_of_isGot (silent x new)
  | silent before => exact .silent fun x hx => (List.mem_append.mp hx).elim (before x) (silent x)
  | asked before => exact .asked fun x hx => (List.mem_append.mp hx).elim (before x) (silent x)

theorem Gate.append (h : Gate steps xs) (silent : ∀ y ∈ ys, y.isGot = true) :
    Gate steps (xs ++ ys) := by
  obtain ⟨done, todo, tail, all, passes, rfl, rest⟩ := h
  exact ⟨done, todo, tail ++ ys, all, passes, List.append_assoc _ _ _, rest.append silent⟩

/-- who writes a command has all steps behind -/
theorem Gate.opened_of_command (h : Gate steps xs) {c : Command} {frame : Bytes}
    (written : .sent (.command c) frame ∈ xs) : Opened steps xs := by
  obtain ⟨done, todo, tail, all, passes, rfl, rest⟩ := h
  have after : .sent (.command c) frame ∈ tail :=
    (List.mem_append.mp written).resolve_left (command_not_mem_dialogue done c frame)
  cases rest with
  | talk talk => exact ⟨done, tail, by rw [all, List.append_nil], passes, rfl, talk⟩
  | silent silent => cases silent _ after
  | asked silent =>
    rcases List.mem_cons.mp after with same | later
    · cases same
    · cases silent _ later

end

/-! ## the steps that are left -/

namespace Config

theorem selectSteps_cons {config : Config} {h : Handshake} {frame : Bytes}
    {rest : List (Handshake × Bytes)} (e : config.selectSteps = (h, frame) :: rest) :
    rest = config.stepsAfter h := by
  unfold selectSteps at e
  cases database : config.database with
  | none => rw [database] at e; cases e
  | some db => rw [database] at e; cases e; rfl

theorem roleSteps_cons {config : Config} {sentinel? : Option Nat} {h : Handshake} {frame : Bytes}
    {rest : List (Handshake × Bytes)} (e : config.roleSteps sentinel? = (h, frame) :: rest) :
    rest = config.stepsAfter h := by
  cases sentinel? with
  | none => exact selectSteps_cons e
  | some i => cases e; rfl

theorem greeting_cons {config : Config} {sentinel? : Option Nat} {h : Handshake} {frame : Bytes}
    {rest : List (Handshake × Bytes)} (e : config.greeting sentinel? = (h, frame) :: rest) :
    rest = config.stepsAfter h := by
  unfold greeting at e
  cases password : config.password with
  | none => rw [password] at e; exact roleSteps_cons e
  | some word => rw [password] at e; cases e; rfl

theorem stepsAfter_cons {config : Config} {h h' : Handshake} {frame : Bytes}
    {rest : List (Handshake × Bytes)} (e : config.stepsAfter h = (h', frame) :: rest) :
    rest = config.stepsAfter h' := by
  cases h with
  | auth sentinel? => exact roleSteps_cons e
  | role i => exact selectSteps_cons e
  | select => cases e

end Config

/-- `ROLE` is answered well by an array that begins with the text `master`, any other step by
whatever is no error -/
theorem Handshake.passes_iff (h : Handshake) (reply : Reply) :
    h.passes reply = true ↔
      match h with
      | role _ => ∃ rest, reply = .array (.simple "master" :: rest) ∨
        reply = .array (.bulk (Utf8.encode "master") :: rest)
      | auth _ | select => ∀ text, reply ≠ .error text := by
  cases h with
  | role i =>
    show reply.isMaster = true ↔ _
    constructor
    · intro master
      unfold Reply.isMaster at master
      split at master
      · next role rest => exact ⟨rest, .inl (by rw [eq_of_beq master])⟩
      · next role rest _ =>
        cases role with
        | bulk bytes => exact ⟨rest, .inr (by rw [eq_of_beq master])⟩
        | _ => cases master
      · cases master
    · rintro ⟨rest, rfl | rfl⟩
      · exact beq_self_eq_true "master"
      · exact beq_self_eq_true (Utf8.encode "master")
  | _ =>
    cases reply with
    | error text => simp [passes]
    | _ => simp [passes]

/-! ## moves -/

namespace Link
section
variable {l m : Link} {ins : List Intake} {es : List Effect} {steps : List (Handshake × Bytes)}

theorem overlooks_exchange : Overlooks Effect.exchange? :=
  ⟨fun _ _ => rfl, fun _ => rfl, fun _ => rfl⟩

/-- nothing waits and no command is written at once -/
structure Mute (l : Link) : Prop where
  waiting : l.waiting = []
  phase : l.phase ≠ .connected

theorem mute_fail (active : l.phase.isActive = true) (err : Error) (retry : Bool) :
    Mute (l.fail err retry).link := by
  rw [fail_of_active active]
  exact ⟨rfl, fun h => by cases h⟩

/-- who is mute stays so until the next socket, and writes nothing -/
theorem Mute.move (mute : Mute l) (h : Move l ins es m) (calm : ∀ e ∈ es, e.opening? = none) :
    Mute m ∧ ∀ x ∈ es.filterMap Effect.exchange?, x.isGot = true := by
  have silent : ∀ x ∈ ([] : List Exchange), x.isGot = true := fun x hx => nomatch hx
  cases h with
  | refuse | rest | keep | pass | hear | spoil => exact ⟨⟨mute.waiting, mute.phase⟩, silent⟩
  | dial phase =>
    rw [connect, if_pos phase]
    exact ⟨⟨mute.waiting, fun h => by cases h⟩, silent⟩
  | attach => cases calm _ List.mem_cons_self
  | advance _ _ _ _ _ _ _ front => rw [mute.waiting] at front; cases front
  | balk _ _ _ _ front => rw [mute.waiting] at front; cases front
  | dispatch _ _ _ phase => exact absurd phase mute.phase
  | lose err retry active =>
    rw [overlooks_exchange.fail active]
    exact ⟨mute_fail active err retry, silent⟩
  | push reply es known mails =>
    rw [filterMap_mails (fun _ _ => rfl) mails]
    exact ⟨mute, silent⟩
  | drop reply =>
    refine ⟨mute, fun x hx => ?_⟩
    rw [List.mem_singleton.mp hx]
    rfl
  | take _ _ _ _ front => rw [mute.waiting] at front; cases front
  | finish _ _ _ _ front => rw [mute.waiting] at front; cases front
  | part _ _ _ _ _ _ front => rw [mute.waiting] at front; cases front
  | stop =>
    rw [overlooks_exchange.shutdown]
    exact ⟨⟨rfl, fun h => by cases h⟩, silent⟩

/-- only commands wait on a socket that is held -/
structure Talking (socket : Nat) (l : Link) : Prop where
  held : l.held? = some socket
  phase : l.phase = .connected
  waiting : ∀ w ∈ l.waiting, ∃ c, w = .command c

/-- who is talking goes on so until the socket is lost -/
theorem Talking.move {socket : Nat} (talking : Talking socket l) (h : Move l ins es m)
    (calm : ∀ e ∈ es, e.opening? = none) :
    (Talking socket m ∨ Mute m) ∧ ∀ x ∈ es.filterMap Effect.exchange?, x.isTalk = true := by
  have silent : ∀ x ∈ ([] : List Exchange), x.isTalk = true := fun x hx => nomatch hx
  have got (reply : Reply) : ∀ x ∈ [Exchange.got reply], x.isTalk = true := by
    intro x hx
    rw [List.mem_singleton.mp hx]
    rfl
  have phase := talking.phase
  have active : l.phase.isActive = true := by rw [phase]; rfl
  -- a command at the front leaves commands behind
  have behind {w : Waiter} {rest : List Waiter} (front : l.waiting = w :: rest) :
      ∀ w ∈ rest, ∃ c, w = .command c := fun w hw =>
    talking.waiting w (by rw [front]; exact List.mem_cons_of_mem _ hw)
  cases h with
  | refuse | rest | keep | pass | hear =>
    exact ⟨.inl ⟨talking.held, phase, talking.waiting⟩, silent⟩
  | dial phase' => rw [phase] at phase'; cases phase'
  | attach => cases calm _ List.mem_cons_self
  | advance _ _ _ _ _ phase' => rw [phase] at phase'; cases phase'
  | balk h rest _ _ front =>
    obtain ⟨c, hc⟩ := talking.waiting (.handshake h) (by rw [front]; exact List.mem_cons_self)
    cases hc
  | dispatch c rest s _ held =>
    refine ⟨.inl ⟨?_, phase, fun w hw => ?_⟩, fun x hx => ?_⟩
    · exact (held?_awaiting (l := { l with pending := rest }) held _).trans talking.held
    · rcases List.mem_append.mp hw with old | new
      · exact talking.waiting w old
      · exact ⟨c, List.mem_singleton.mp new⟩
    · rw [List.mem_singleton.mp hx]
      exact decide_eq_true rfl
  | lose err retry =>
    rw [overlooks_exchange.fail active]
    exact ⟨.inr (mute_fail active err retry), silent⟩
  | push reply es known mails =>
    rw [filterMap_mails (fun _ _ => rfl) mails]
    exact ⟨.inl talking, silent⟩
  | drop reply => exact ⟨.inl talking, got reply⟩
  | take c rest reply _ front =>
    refine ⟨.inl ⟨talking.held, phase, fun w hw => ?_⟩, got reply⟩
    rcases List.mem_cons.mp hw with first | other
    · exact ⟨_, first⟩
    · exact behind front w other
  | finish c rest reply _ front => exact ⟨.inl ⟨talking.held, phase, behind front⟩, got reply⟩
  | part c rest reply =>
    refine ⟨.inr ⟨rfl, fun h => by cases h⟩, ?_⟩
    show ∀ x ∈ Exchange.got reply :: List.filterMap Effect.exchange? (_ ++ _), x.isTalk = true
    rw [List.filterMap_append, overlooks_exchange.teardown]
    exact got reply
  | spoil f same =>
    exact ⟨.inl ⟨(l.held?_spoilt same).trans talking.held, phase, talking.waiting⟩, silent⟩
  | stop =>
    rw [overlooks_exchange.shutdown]
    exact ⟨.inr ⟨rfl, fun h => by cases h⟩, silent⟩

/-! ## how far a sitting is -/

theorem Onward.writes (h : Onward steps l es m) {socket : Nat} {w : Waiter} {frame : Bytes}
    (written : .wrote socket w frame ∈ es) : l.held? = some socket := by
  cases h with
  | ask held =>
    cases List.mem_singleton.mp written
    exact congrArg (Option.map Socket.number) held
  | join | halt => cases written

/-- a frame goes out on the socket that is held, and a link that is mute writes none -/
theorem Move.writes (h : Move l ins es m) (calm : ∀ e ∈ es, e.opening? = none) {socket : Nat}
    {w : Waiter} {frame : Bytes} (written : .wrote socket w frame ∈ es) :
    l.held? = some socket ∧ ¬ Mute l := by
  have sent : .sent w frame ∈ es.filterMap Effect.exchange? :=
    List.mem_filterMap.mpr ⟨_, written, rfl⟩
  refine ⟨?_, fun mute => by cases (mute.move h calm).2 _ sent⟩
  cases h with
  | dial phase =>
    rw [connect, if_pos phase] at written
    cases List.mem_singleton.mp written
  | attach => cases calm _ List.mem_cons_self
  | advance _ _ _ _ _ _ _ _ _ onward =>
    rcases List.mem_cons.mp written with first | later
    · cases first
    · exact onward.writes later
  | dispatch c rest s phase held =>
    cases List.mem_singleton.mp written
    exact congrArg (Option.map Socket.number) held
  | lose err retry active =>
    rw [overlooks_exchange.fail active] at sent
    cases sent
  | push reply es known mails =>
    obtain ⟨mailbox, push, e⟩ := mails _ written
    cases e
  | part c rest reply err =>
    rcases List.mem_cons.mp sent with first | later
    · cases first
    · rw [List.filterMap_append, overlooks_exchange.teardown] at later
      cases later
  | stop =>
    rw [overlooks_exchange.shutdown] at sent
    cases sent
  | _ => simp at written

/-- the frames of a sitting go out on its own socket -/
def OnSocket (x : Sitting) : Prop :=
  ∀ socket w frame, .wrote socket w frame ∈ x.effects → x.opening?.map Opening.socket = some socket

/-- what may pass before the first socket, and what may pass on a socket -/
def Gated (config : Config) (x : Sitting) : Prop :=
  match x.opening? with
  | none => ∀ e ∈ x.exchanges, e.isGot = true
  | some o => Gate (config.greeting o.sentinel?) x.exchanges

inductive Stands (config : Config) (x : Sitting) (l : Link) : Prop
  | mute (mute : Mute l) (gated : Gated config x)
  /-- a step of the handshake is written and not answered -/
  | asking (o : Opening) (done : List ((Handshake × Bytes) × Reply)) (h : Handshake)
    (frame : Bytes) (opening : x.opening? = some o) (held : l.held? = some o.socket)
    (phase : l.phase = .connecting) (waiting : l.waiting = [.handshake h])
    (steps : config.greeting o.sentinel? = done.map Prod.fst ++ (h, frame) :: config.stepsAfter h)
    (passes : ∀ d ∈ done, d.1.1.passes d.2 = true)
    (exchanges : x.exchanges = dialogue done ++ [.sent (.handshake h) frame])
  | opened (o : Opening) (opening : x.opening? = some o) (talking : Talking o.socket l)
    (opened : Opened (config.greeting o.sentinel?) x.exchanges)

theorem Stands.gated {config : Config} {x : Sitting} (h : Stands config x l) : Gated config x := by
  cases h with
  | mute _ gated => exact gated
  | asking o done h frame opening held phase waiting steps passes exchanges =>
    rw [Gated, opening]
    exact ⟨done, _, _, steps, passes, exchanges, .asked fun x hx => nomatch hx⟩
  | opened o opening talking opened =>
    rw [Gated, opening]
    exact opened.gate

theorem Gated.append {config : Config} {x : Sitting} (h : Gated config x)
    (silent : ∀ e ∈ es.filterMap Effect.exchange?, e.isGot = true) :
    Gated config (x.extend es) := by
  unfold Gated at h ⊢
  rw [Sitting.exchanges_extend]
  show match x.opening? with
    | none => ∀ e ∈ x.exchanges ++ es.filterMap Effect.exchange?, e.isGot = true
    | some o => Gate (config.greeting o.sentinel?) (x.exchanges ++ es.filterMap Effect.exchange?)
  cases opening : x.opening? with
  | none =>
    rw [opening] at h
    exact fun e he => (List.mem_append.mp he).elim (h e) (silent e)
  | some o =>
    rw [opening] at h
    exact Gate.append h silent

/-- after a dialogue of the first steps the handshake goes on -/
theorem Onward.stands {config : Config} {o : Opening} {x : Sitting}
    (onward : Onward steps l es m) (done : List ((Handshake × Bytes) × Reply))
    (opening : x.opening? = some o) (held : l.held? = some o.socket)
    (phase : l.phase = .connecting) (waiting : l.waiting = [])
    (all : config.greeting o.sentinel? = done.map Prod.fst ++ steps)
    (next : ∀ h frame rest, steps = (h, frame) :: rest → rest = config.stepsAfter h)
    (passes : ∀ d ∈ done, d.1.1.passes d.2 = true)
    (exchanges : x.exchanges = dialogue done ++ es.filterMap Effect.exchange?) :
    Stands config x m := by
  cases onward with
  | @ask h frame rest _ s held' =>
    refine .asking o done h frame opening ?_ phase ?_ ?_ passes exchanges
    · exact (held?_awaiting held' _).trans held
    · show l.waiting ++ _ = _
      rw [waiting]
      rfl
    · rw [all, next h frame rest rfl]
  | join =>
    refine .opened o opening ⟨held, rfl, fun w hw => ?_⟩ ?_
    · have hw : w ∈ l.waiting := hw
      rw [waiting] at hw
      cases hw
    · exact ⟨done, [], by rw [all, List.append_nil], passes, exchanges, fun x hx => nomatch hx⟩
  | halt =>
    refine .mute ⟨waiting, fun h => ?_⟩ ?_
    · rw [phase] at h
      cases h
    · rw [Gated, opening]
      exact ⟨done, _, [], all, passes, exchanges, .silent fun x hx => nomatch hx⟩

theorem Stands.move {config : Config} {x : Sitting} (same : l.config = config)
    (h : Stands config x l) (move : Move l ins es m) (calm : ∀ e ∈ es, e.opening? = none) :
    Stands config (x.extend es) m := by
  have whole := x.exchanges_extend es
  cases h with
  | mute mute gated =>
    obtain ⟨mute', silent⟩ := mute.move move calm
    exact .mute mute' (gated.append silent)
  | opened o opening talking opened =>
    obtain ⟨then', talk⟩ := talking.move move calm
    have opened' : Opened (config.greeting o.sentinel?) (x.extend es).exchanges := by
      rw [whole]
      exact opened.append talk
    rcases then' with talking' | mute
    · exact .opened o opening talking' opened'
    · refine .mute mute ?_
      rw [Gated, show (x.extend es).opening? = some o from opening]
      exact opened'.gate
  | asking o done h frame opening held phase waiting steps passes exchanges =>
    have gated : Gated config x := Stands.gated
      (.asking o done h frame opening held phase waiting steps passes exchanges)
    have active : l.phase.isActive = true := by rw [phase]; rfl
    have still (same : es.filterMap Effect.exchange? = []) :
        (x.extend es).exchanges = dialogue done ++ [.sent (.handshake h) frame] := by
      rw [whole, same, List.append_nil, exchanges]
    have lost (same : es.filterMap Effect.exchange? = []) : Gated config (x.extend es) :=
      gated.append (by rw [same]; exact fun x hx => nomatch hx)
    cases move with
    | refuse | rest | keep | pass | hear =>
      exact .asking o done h frame opening held phase waiting steps passes (still rfl)
    | dial phase' => rw [phase] at phase'; cases phase'
    | attach => cases calm _ List.mem_cons_self
    | advance h' rest reply s plain _ held' front passed onward =>
      rw [waiting] at front
      cases front
      rw [same] at onward
      refine onward.stands (done ++ [((h, frame), reply)]) opening held phase rfl ?_
        (fun h' frame' rest e => Config.stepsAfter_cons e) ?_ ?_
      · rw [steps, List.map_append, List.append_assoc]
        rfl
      · intro d hd
        rcases List.mem_append.mp hd with old | new
        · exact passes d old
        · rw [List.mem_singleton.mp new]
          exact passed
      · rw [whole, exchanges, dialogue_append, List.append_assoc, List.append_assoc]
        rfl
    | balk h' rest reply plain front fails =>
      rw [waiting] at front
      cases front
      refine .mute ⟨rfl, fun h => by rw [show l.phase = .connected from h] at phase; cases phase⟩ ?_
      refine gated.append fun x hx => ?_
      rw [List.mem_singleton.mp hx]
      rfl
    | dispatch c rest s phase' => rw [phase] at phase'; cases phase'
    | lose err retry =>
      exact .mute (mute_fail active err retry) (lost (overlooks_exchange.fail active err retry))
    | push reply es known mails =>
      have none : es.filterMap Effect.exchange? = [] := filterMap_mails (fun _ _ => rfl) mails
      exact .asking o done h frame opening held phase waiting steps passes (still none)
    | drop _ _ front => rw [waiting] at front; cases front
    | take _ _ _ _ front => rw [waiting] at front; cases front
    | finish _ _ _ _ front => rw [waiting] at front; cases front
    | part _ _ _ _ _ _ front => rw [waiting] at front; cases front
    | spoil f same =>
      have held' := (l.held?_spoilt same).trans held
      exact .asking o done h frame opening held' phase waiting steps passes (still rfl)
    | stop => exact .mute ⟨rfl, fun h => by cases h⟩ (lost (overlooks_exchange.shutdown l))

/-- what is known of a sitting while it is the latest -/
structure Guarded (config : Config) (x : Sitting) (l : Link) : Prop where
  same : l.config = config
  own : OnSocket x
  stands : Stands config x l

theorem guarded_start (role : Role) (config : Config) :
    Guarded config ⟨none, []⟩ (start role config) where
  same := rfl
  own := fun _ _ _ h => nomatch h
  stands := .mute ⟨rfl, fun h => nomatch h⟩ fun _ he => nomatch he

theorem tracks_guarded (config : Config) : Tracks (fun _ => True) (Guarded config) where
  extend := by
    rintro x l m ins es ⟨same, socket, stands⟩ move _ calm
    refine ⟨move.same.2.trans same, fun n w frame written => ?_, stands.move same move calm⟩
    rcases List.mem_append.mp written with old | new
    · exact socket n w frame old
    · obtain ⟨held, audible⟩ := move.writes calm new
      show x.opening?.map Opening.socket = some n
      cases stands with
      | mute mute => exact absurd mute audible
      | asking o _ _ _ opening held' =>
        rw [opening, ← held, held']
        rfl
      | opened o opening talking =>
        rw [opening, ← held, talking.held]
        rfl
  attach := by
    rintro x l m es ⟨same, _⟩ socket sentinel? err phase onward
    rw [same] at onward
    refine ⟨onward.same.2.trans same, fun n w frame written => ?_, ?_⟩
    · rcases List.mem_append.mp written with failed | later
      · obtain ⟨c, _, e⟩ := List.mem_map.mp failed
        cases e
      · exact onward.writes later
    · refine onward.stands [] rfl rfl phase rfl rfl
        (fun h frame rest e => Config.greeting_cons e) (fun d hd => nomatch hd) ?_
      show List.filterMap _ (_ ++ es) = _
      rw [List.filterMap_append, filterMap_failures overlooks_exchange.failed]
      rfl

/-- **No command passes the gate before the handshake.**  On every socket of every run the steps of
the configuration are written in order, each once and each after the one before was answered well,
and after a bad answer nothing is written; a command is written, and the link is connected, only
when all steps are answered well.  Every frame belongs to a sitting of its socket; and in a play the
answers are the replies of that socket, pushes apart, from the first one on. -/
theorem gate_of_run (role : Role) (config : Config) (events : List Event) :
    let t := run events (start role config)
    (∀ x ∈ (Sittings.of t.effects).all, ∀ o, x.opening? = some o →
      Gate (config.greeting o.sentinel?) x.exchanges ∧
      ∀ c frame, .sent (.command c) frame ∈ x.exchanges →
        Opened (config.greeting o.sentinel?) x.exchanges) ∧
    (∀ socket w frame, .wrote socket w frame ∈ t.effects →
      ∃ x ∈ (Sittings.of t.effects).all, ∃ o, x.opening? = some o ∧ o.socket = socket ∧
        .wrote socket w frame ∈ x.effects) ∧
    (t.link.phase = .connected → ∃ o, (Sittings.of t.effects).latest.opening? = some o ∧
      t.link.held? = some o.socket ∧
      Opened (config.greeting o.sentinel?) (Sittings.of t.effects).latest.exchanges) ∧
    ((Scene.start role config).Plays events →
      ∀ x ∈ (Sittings.of t.effects).all, ∀ o, x.opening? = some o →
        x.exchanges.filterMap Exchange.reply? <+: repliesOf role config events o.epoch) := by
  intro t
  obtain ⟨ins, ⟨moves, _⟩, _⟩ := run_leads (settled_start role config) events
  have tracked := moves.tracks (tracks_guarded config) (fun _ _ => trivial)
    (s := ⟨⟨none, []⟩, []⟩) ⟨guarded_start role config, fun x hx => nomatch hx⟩
  refine ⟨fun x hx o opening => ?_, fun socket w frame written => ?_, fun connected => ?_,
    fun plays x hx o opening => ?_⟩
  · obtain ⟨l, _, _, stands⟩ := tracked.exists hx
    have gated := stands.gated
    rw [Gated, opening] at gated
    exact ⟨gated, fun c frame sent => Gate.opened_of_command gated sent⟩
  · obtain ⟨x, hx, inside⟩ := Sittings.exists_mem_of written rfl
    obtain ⟨l, guarded⟩ := tracked.exists hx
    have own := guarded.own socket w frame inside
    obtain ⟨o, opening, number⟩ := Option.map_eq_some_iff.mp own
    exact ⟨x, hx, o, opening, number, inside⟩
  · cases tracked.1.stands with
    | mute mute => exact absurd connected mute.phase
    | asking _ _ _ _ _ _ phase =>
      rw [show t.link.phase = .connecting from phase] at connected
      cases connected
    | opened o opening talking opened => exact ⟨o, opening, talking.held, opened⟩
  · have heard := Scene.heard_of_plays role config plays
    have past : ((Scene.start role config).run events).past = t.effects :=
      (Scene.run_eq _ events).2
    rw [Sitting.reply?_exchanges]
    exact heard.heard x (by rw [past]; exact hx) o opening

/-- a command waits for all three steps, whose replies come in one chunk -/
theorem gate_of_run_with_all_steps :
    let config := { Config.default with password := some "secret", database := some 3 }
    let events := [.send (Command.ofRequest 1 (Request.ofVerb "PING") .utf8),
      .attached 1 (.fresh 7) (some 0), .data 1 (Utf8.encode "+OK\r\n*1\r\n$6\r\nmaster\r\n+OK\r\n")]
    (Scene.start .command config).Plays events ∧
      (run events (start .command config)).link.phase = .connected ∧
      ∃ o : Opening, (run events (start .command config)).link.held? = some o.socket ∧
        Opened (config.greeting o.sentinel?)
          (Sittings.of (run events (start .command config)).effects).latest.exchanges ∧
        (Sittings.of (run events (start .command config)).effects).latest.exchanges.filterMap
          Exchange.reply? <+: repliesOf .command config events o.epoch := by
  intro config events
  have plays : (Scene.start .command config).Plays events := by
    refine ⟨Command.fresh_ofRequest _ _ _, List.mem_singleton.mpr rfl,
      ⟨⟨1, 7, some 0⟩, ?_, rfl⟩, trivial⟩
    decide +kernel
  have connected : (run events (start .command config)).link.phase = .connected := by
    decide +kernel
  obtain ⟨_, _, opens, answers⟩ := gate_of_run .command config events
  obtain ⟨o, opening, held, opened⟩ := opens connected
  exact ⟨plays, connected, o, held, opened, answers plays _ List.mem_cons_self o opening⟩

end
end Link
end RespLink
