import RespLink.Proofs.Spacing
import RespLink.Proofs.Affinity

/-!
# Dials without Sentinels

A link that goes straight to its server dials for a command that it takes in while it is at rest,
and for nothing else.

* `Link.Unranked`, `Plain`   no step of the handshake has to do with Sentinels, and no end asks for
                        a retry; one lemma a handler, and `plain_progress` for all events;
* `Link.accepts`        the commands that a link at rest takes in;
* `Venture`             a watch with the connect attempts that are under way, each told by the
                        network what came of its dial, and all that was dialled;
* `Venture.Direct`      what is kept from act to act: attempts go straight to the server, and no
                        timer is set;
* `dials_of_direct`     what follows for every course of acts.
-/

namespace RespLink

/-- the outcome of an attempt that does not go through Sentinels -/
def Event.isStraight : Event → Bool
  | attached _ _ sentinel? => sentinel?.isNone
  | connectFailed _ _ again => !again
  | _ => true

/-- a step of the handshake that has nothing to do with Sentinels -/
def Handshake.isPlain : Handshake → Bool
  | auth sentinel? => sentinel?.isNone
  | role _ => false
  | select => true

namespace Link

/-! ## handlers -/

/-- nothing that waits has to do with Sentinels -/
def Unranked (l : Link) : Prop := ∀ h, .handshake h ∈ l.waiting → h.isPlain = true

/-- progress that has nothing to do with Sentinels -/
structure Plain (x : Progress) : Prop where
  unranked : x.turn.link.Unranked
  causes : ∀ t why, x = .upTo t (.lost why) → why.retries = false

section
variable {l : Link} {t : Turn} {x : Progress} {f : Link → Progress}

theorem Plain.through (unranked : t.link.Unranked) : Plain (.through t) :=
  ⟨unranked, fun _ _ is => nomatch is⟩

theorem Plain.upTo {d : End} (unranked : t.link.Unranked)
    (causes : ∀ why, d = .lost why → why.retries = false) : Plain (.upTo t d) :=
  ⟨unranked, fun _ why is => by cases is; exact causes why rfl⟩

theorem Plain.after (later : Plain (f t.link)) : Plain ((Progress.through t).andThen f) := by
  rw [Progress.andThen]
  cases next : f t.link with
  | through u =>
    rw [next] at later
    exact .through later.unranked
  | upTo u d =>
    rw [next] at later
    exact .upTo later.unranked fun why is => later.causes u why (is ▸ rfl)

theorem Plain.andThen (first : Plain x) (later : ∀ l : Link, l.Unranked → Plain (f l)) :
    Plain (x.andThen f) := by
  cases x with
  | through t => exact .after (later t.link first.unranked)
  | upTo t d => exact first

theorem Unranked.tail (h : l.Unranked) {w : Waiter} {rest : List Waiter}
    (front : l.waiting = w :: rest) : { l with waiting := rest }.Unranked :=
  fun step member => h step (by rw [front]; exact List.mem_cons_of_mem _ member)

theorem plain_writing (h : l.Unranked) {w : Waiter}
    (plain : ∀ step, w = .handshake step → step.isPlain = true) (frame : Bytes) :
    Plain (l.writing w frame) := by
  have awaiting : { l with waiting := l.waiting ++ [w] }.Unranked := by
    intro step member
    rcases List.mem_append.mp member with old | new
    · exact h step old
    · exact plain step (List.mem_singleton.mp new).symm
  unfold writing
  split
  · exact .upTo awaiting fun why is => by cases is; rfl
  · dsimp only
    split
    · exact .through awaiting
    · exact .upTo awaiting fun why is => by cases is; rfl

theorem plain_flushing (cs : List Command) (h : l.Unranked) : Plain (flushing cs l) := by
  induction cs generalizing l with
  | nil => exact .through h
  | cons c rest ih =>
    have pending : { l with pending := rest }.Unranked := h
    have written : Plain (writing (.command c) c.frame { l with pending := rest }) :=
      plain_writing pending (fun _ is => by cases is) _
    exact written.andThen fun m hm => ih hm

theorem plain_proceeding (h : l.Unranked) {steps : List (Handshake × Bytes)}
    (head : ∀ step frame rest, steps = (step, frame) :: rest → step.isPlain = true) :
    Plain (l.proceeding steps) := by
  cases steps with
  | nil => exact plain_flushing _ h
  | cons first rest => exact plain_writing h (fun step is => by cases is; exact head _ _ _ rfl) _

theorem plain_attaching (socket : Socket) (l : Link) : Plain (l.attaching socket none) := by
  refine .after (plain_proceeding (fun _ member => by cases member) fun step frame rest e => ?_)
  rcases Config.greeting_head e with rfl | rfl | ⟨_, _, none⟩
  · rfl
  · rfl
  · cases none

theorem plain_stepsAfter {config : Config} {h step : Handshake} {frame : Bytes}
    {rest : List (Handshake × Bytes)} (plain : h.isPlain = true)
    (e : config.stepsAfter h = (step, frame) :: rest) : step.isPlain = true := by
  match h, plain with
  | .auth none, _ =>
    rcases Config.roleSteps_head e with rfl | ⟨_, _, none⟩
    · rfl
    · cases none
  | .select, _ => cases e

/-- a reply to such a step goes on to the next one, or ends the connection for good -/
theorem plain_accepting (h : l.Unranked) (reply : Reply) : Plain (l.accepting reply) := by
  unfold accepting
  split
  · exact .through h
  · next step rest front =>
    have fewer := h.tail front
    have plain : step.isPlain = true := h step (by rw [front]; exact List.mem_cons_self)
    split
    · next why refused =>
      refine .upTo fewer fun why' is => ?_
      cases is
      match step, plain with
      | .auth none, _ => cases reply <;> cases refused; rfl
      | .select, _ => cases reply <;> cases refused; rfl
    · have promoted : { l with
          waiting := rest, sentinels := step.promote l.sentinels }.Unranked := fewer
      exact plain_proceeding promoted fun _ _ _ e => plain_stepsAfter plain e
  · next c rest front =>
    have fewer := h.tail front
    dsimp only
    split
    · split
      · exact .upTo fewer fun _ is => nomatch is
      · exact .through fewer
    · refine .through fun step member => ?_
      rcases List.mem_cons.mp member with is | later
      · cases is
      · exact fewer step later

theorem plain_replying (h : l.Unranked) (reply : Reply) : Plain (l.replying reply) := by
  unfold replying
  split
  · exact .through h
  · exact .after (plain_accepting h reply)

theorem plain_hearing (replies : List Reply) (h : l.Unranked) : Plain (hearing replies l) := by
  induction replies generalizing l with
  | nil => exact .through h
  | cons reply rest ih => exact (plain_replying h reply).andThen fun m hm => ih hm

theorem plain_receiving (h : l.Unranked) (chunk : Bytes) : Plain (l.receiving chunk) := by
  have heard : Plain (hearing (l.parser.feed chunk).replies
      { l with parser := (l.parser.feed chunk).parser }) := plain_hearing _ h
  refine heard.andThen fun m hm => ?_
  unfold faulting
  split
  · exact .upTo hm fun why is => by cases is; rfl
  · exact .through hm

theorem plain_queueing (h : l.Unranked) (c : Command) : Plain (l.queueing c) := by
  unfold queueing
  split
  · exact plain_writing h (fun _ is => by cases is) _
  · exact .through h

theorem plain_sending (h : l.Unranked) (c : Command) : Plain (l.sending c) := by
  unfold sending
  split
  · exact plain_queueing h c
  · exact .through h
  · next change _ _ =>
    have applied : { l with registry := (l.registry.apply change).1 }.Unranked := h
    exact plain_queueing applied _

theorem plain_progress (h : l.Unranked) {e : Event} (straight : e.isStraight = true) :
    Plain (l.progress e) := by
  -- a report that is overlooked unless it is of the link's own epoch
  have current {p : Prop} [Decidable p] {t : Turn} {why : Cause} (unranked : t.link.Unranked)
      (unmarked : why.retries = false) :
      Plain (if p then .upTo t (.lost why) else .through (.of l)) := by
    split
    · exact .upTo unranked fun why' is => by cases is; exact unmarked
    · exact .through h
  cases e with
  | send c => exact plain_sending h c
  | disconnect t => exact plain_sending h (Command.ofRequest t quit l.config.encoding)
  | attached epoch socket sentinel? =>
    cases sentinel? with
    | some i => cases straight
    | none =>
      show Plain (if _ then _ else _)
      split
      · exact plain_attaching socket l
      · exact .through h
  | connectFailed epoch err retry =>
    cases retry with
    | true => cases straight
    | false => exact current h rfl
  | data epoch chunk =>
    show Plain (if _ then _ else _)
    split
    · exact plain_receiving h chunk
    · exact .through h
  | closed epoch => exact current h rfl
  | readFailed epoch cause => exact current h rfl
  | retry | writesFail | flushesFail => exact .through h
  | shutdown => exact .upTo h fun _ is => nomatch is

/-! ## what is accepted -/

/-- the event is a command that a link at rest takes in -/
def accepts (l : Link) : Event → Bool
  | .send c => !l.stopped && l.phase = .disconnected && (c.change?.isNone || l.role = .pubsub)
  | _ => false

theorem connect_of_accepts {e : Event} (h : l.accepts e = true) : l.phase = .disconnected ∧
    (l.step e).effects =
      [.dial (l.epoch + 1) (if l.config.sentinelMode then some l.sentinels else none)] := by
  cases e with
  | send c =>
    rw [accepts, Bool.and_eq_true, Bool.and_eq_true, Bool.not_eq_true'] at h
    obtain ⟨⟨running, phase⟩, taken⟩ := h
    have phase := of_decide_eq_true phase
    refine ⟨phase, ?_⟩
    have queued (c : Command) (registry : Registry) :
        (queue c { l with registry := registry }).effects =
          [.dial (l.epoch + 1) (if l.config.sentinelMode then some l.sentinels else none)] := by
      rw [queue_of_disconnected (l := { l with registry := registry }) phase, connect, if_pos phase]
    rw [step_of_running running]
    show (l.send c).effects = _
    unfold send
    split
    · exact queued c l.registry
    · next change role => rw [change, role] at taken; cases taken
    · exact queued _ _
  | _ => cases h

theorem active_of_accepts {e : Event} (pulse : l.Pulse e (l.step e)) (h : l.accepts e = true) :
    (l.step e).link.phase.isActive = true := by
  obtain ⟨phase, effects⟩ := connect_of_accepts h
  cases pulse with
  | quiet quiet =>
    rw [effects] at quiet
    exact nomatch quiet _ List.mem_cons_self
  | calls _ _ active => exact active
  | fails _ _ _ active =>
    rw [phase] at active
    cases active

/-- nothing else starts an attempt, retries apart -/
theorem calls_of_not_accepts {e : Event} (pulse : l.Pulse e (l.step e)) (h : l.accepts e = false)
    (other : e ≠ .retry) : (l.step e).effects.filterMap Effect.call? = [] := by
  rcases pulse.calls_cases with none | ⟨phase, one⟩
  · exact none
  · cases pulse with
    | quiet quiet => exact calls_of_quiet quiet
    | fails _ _ es _ _ _ _ _ effects quiet =>
      rw [effects, List.filterMap_append, calls_of_quiet quiet]
      rfl
    | calls _ cause =>
      rcases cause with asked | ⟨c, rfl⟩
      · exact absurd asked other
      · cases running : l.stopped with
        | true =>
          rw [step_of_stopped running]
          rfl
        | false =>
          rw [accepts, running, phase] at h
          have refused : c.change?.isNone = false ∧ decide (l.role = .pubsub) = false := by
            simpa using h
          rw [step_of_running running]
          show (l.send c).effects.filterMap _ = []
          unfold send
          split
          · next plain => rw [plain] at refused; cases refused.1
          · rfl
          · next role => rw [role] at refused; cases refused.2

/-- attempts are counted as they start -/
theorem Pulse.attempts_eq {e : Event} {t : Turn} (h : l.Pulse e t) :
    t.link.attempts = l.attempts + (t.effects.filterMap Effect.call?).length := by
  cases h with
  | quiet quiet attempts => rw [calls_of_quiet quiet, attempts]; rfl
  | calls _ _ _ attempts effects => rw [effects, attempts]; rfl
  | fails _ _ es _ _ _ _ attempts effects quiet =>
    rw [effects, List.filterMap_append, calls_of_quiet quiet, attempts]
    rfl

end
end Link

namespace Scene
section
variable {s : Scene} {e : Event}

theorem unranked_step (sound : s.link.stopped = false → s.Sound) (unranked : s.link.Unranked)
    (admits : s.Admits e) (straight : e.isStraight = true) : (s.link.step e).link.Unranked := by
  cases running : s.link.stopped with
  | true =>
    have still : (s.link.step e).link = s.link := Link.run_of_stopped running [e]
    rw [still]
    exact unranked
  | false =>
    have sound := sound running
    have none {l : Link} (waiting : l.waiting = []) : l.Unranked := by
      intro h member
      rw [waiting] at member
      cases member
    cases active : s.link.phase.isActive with
    | true =>
      cases told : s.link.progress e with
      | through t =>
        have tells := sound.tells running active admits
        have plain := Link.plain_progress unranked straight
        rw [← tells.whole, told]
        rw [told] at plain
        exact plain.unranked
      | upTo before d => exact none (sound.rests_of_ended running active admits told).waiting
    | false =>
      have rouses := sound.rouses running active admits
      generalize s.link.step e = t at rouses
      cases rouses with
      | stays | calls => exact unranked
      | stops => exact none rfl

/-- where nothing has to do with Sentinels no retry is asked for -/
theorem no_retryAfter (sound : s.link.stopped = false → s.Sound) (unranked : s.link.Unranked)
    (admits : s.Admits e) (straight : e.isStraight = true) (delay : Nat) :
    .retryAfter delay ∉ (s.link.step e).effects := by
  intro asked
  cases pulse sound admits with
  | quiet quiet => exact nomatch quiet _ asked
  | calls _ _ _ _ effects =>
    rw [effects] at asked
    cases List.mem_singleton.mp asked
  | fails before why _ _ told retries =>
    rw [(Link.plain_progress unranked straight).causes before why told] at retries
    cases retries

/-- a connection that there is lasts, or it ends -/
theorem stake_step (sound : s.link.stopped = false → s.Sound) (admits : s.Admits e) :
    s.link.stake ≤ (s.link.step e).link.stake + (s.link.end? e).toList.length := by
  cases running : s.link.stopped with
  | true =>
    have still : (s.link.step e).link = s.link := Link.run_of_stopped running [e]
    rw [still]
    exact Nat.le_add_right _ _
  | false =>
    cases active : s.link.phase.isActive with
    | false =>
      rw [Link.stake, active]
      exact Nat.zero_le _
    | true =>
      cases told : s.link.progress e with
      | through t =>
        have tells := (sound running).tells running active admits
        have lasts := tells.lasts
        rw [told] at lasts
        have still : t.link.phase.isActive = true := lasts.active active
        rw [← tells.whole, told, Link.stake_of_active active]
        show 1 ≤ t.link.stake + _
        rw [Link.stake_of_active still]
        exact Nat.le_add_right _ _
      | upTo before d =>
        rw [Watch.end?_of_progress active told, Link.stake_of_active active]
        exact Nat.le_add_left _ _

end
end Scene

/-! ## attempts under way -/

/-- an attempt that does not go through Sentinels has dialled all that it will -/
theorem Attempt.Seeks.silent {a : Attempt} (h : a.Seeks false) (config : Config)
    (signal : Signal) : (a.step config signal).2 = [] := by
  cases a with
  | straight server => cases signal <;> rfl
  | through walk => cases h
  | ended outcome => rfl

/-- the epoch of the connect attempt whose outcome the link meets -/
def Moment.outcome? : Moment → Option Nat
  | event e => e.outcome?
  | _ => none

/-- the connect attempt that starts, with its epoch -/
def Effect.attempt? (config : Config) : Effect → Option (Nat × Attempt × List Action)
  | dial epoch sentinels? => some (epoch, Attempt.start config sentinels?)
  | _ => none

/-- a link in time, its connect attempts, and what they have dialled -/
structure Venture where
  watch : Watch
  /-- those whose outcome the link has not met yet, each with its epoch -/
  attempts : List (Nat × Attempt)
  /-- all peers that were dialled, in order -/
  dials : List Endpoint

namespace Venture

inductive Act where
  /-- a moment that is no report of an attempt -/
  | moment (m : Moment)
  /-- the network tells the attempt of an epoch something -/
  | signal (epoch : Nat) (signal : Signal)
  /-- the link meets the outcome of the attempt of an epoch -/
  | report (epoch : Nat)

def start (role : Role) (config : Config) : Venture := ⟨.start role config, [], []⟩

def link (v : Venture) : Link := v.watch.scene.link

/-- what became of the attempt of an epoch -/
def outcome? (v : Venture) (epoch : Nat) : Option Outcome :=
  (v.attempts.find? fun a => a.1 = epoch).bind fun a => a.2.outcome?

/-- a moment passes, and the attempts that start with it dial -/
def meet (v : Venture) (m : Moment) : Venture :=
  let begun := (v.watch.effects m).filterMap (Effect.attempt? v.link.config)
  { watch := v.watch.next m
    attempts := v.attempts ++ begun.map fun a => (a.1, a.2.1)
    dials := v.dials ++ begun.flatMap fun a => a.2.2.filterMap Action.dial? }

def next (v : Venture) : Act → Venture
  | .moment m => v.meet m
  | .signal epoch signal =>
    let told := v.attempts.map fun a =>
      if a.1 = epoch then (a.1, a.2.step v.link.config signal) else (a.1, a.2, [])
    { v with
      attempts := told.map fun a => (a.1, a.2.1)
      dials := v.dials ++ told.flatMap fun a => a.2.2.filterMap Action.dial? }
  | .report epoch =>
    match v.outcome? epoch with
    | some outcome =>
      { v with attempts := v.attempts.eraseP fun a => a.1 = epoch }.meet
        (.event (outcome.event epoch))
    | none => v

def run (v : Venture) (acts : List Act) : Venture := acts.foldl next v

def Admits (v : Venture) : Act → Prop
  | .moment m => v.watch.Admits m ∧ m.outcome? = none
  | .signal .. => True
  | .report epoch => (v.outcome? epoch).isSome = true

instance (v : Venture) (a : Act) : Decidable (v.Admits a) :=
  match a with
  | .moment m => inferInstanceAs (Decidable (v.watch.Admits m ∧ m.outcome? = none))
  | .signal .. => inferInstanceAs (Decidable True)
  | .report epoch => inferInstanceAs (Decidable ((v.outcome? epoch).isSome = true))

def Plays : Venture → List Act → Prop
  | _, [] => True
  | v, a :: rest => v.Admits a ∧ (v.next a).Plays rest

instance decidablePlays : (v : Venture) → (acts : List Act) → Decidable (v.Plays acts)
  | _, [] => inferInstanceAs (Decidable True)
  | v, a :: rest =>
    have := decidablePlays (v.next a) rest
    inferInstanceAs (Decidable (v.Admits a ∧ (v.next a).Plays rest))

/-- the event that the link meets -/
def event? (v : Venture) : Act → Option Event
  | .moment (.event e) => some e
  | .moment .retry => some .retry
  | .moment _ | .signal .. => none
  | .report epoch => (v.outcome? epoch).map (Outcome.event epoch)

/-- a command is taken in while the link is at rest -/
def accepts (v : Venture) (a : Act) : Bool := (v.event? a).any v.link.accepts

/-- how many commands are, in a course of acts -/
def accepted : Venture → List Act → Nat
  | _, [] => 0
  | v, a :: rest => (if v.accepts a then 1 else 0) + (v.next a).accepted rest

/-- how many connections end, or attempts fail -/
def ended : Venture → List Act → Nat
  | _, [] => 0
  | v, a :: rest => ((v.event? a).bind v.link.end?).toList.length + (v.next a).ended rest

section
variable {v : Venture} {a : Act} {acts : List Act} {config : Config}

/-- the link moves by the event that it meets -/
theorem link_next (v : Venture) (a : Act) :
    (v.next a).link = (v.event? a).elim v.link fun e => (v.link.step e).link := by
  cases a with
  | moment m => cases m <;> rfl
  | signal epoch signal => rfl
  | report epoch =>
    rw [next, event?]
    cases v.outcome? epoch <;> rfl

/-- the attempts that start are those that the link asks for -/
theorem epochs_begun (config : Config) (es : List Effect) :
    (es.filterMap (Effect.attempt? config)).map Prod.fst = es.filterMap Effect.call? := by
  rw [List.map_filterMap]
  refine List.filterMap_congr fun x _ => ?_
  cases x <;> rfl

/-! ## the straight way -/

/-- what is kept where attempts go straight to the server, with the epochs that they are of -/
structure Direct (config : Config) (epochs : List Nat) (v : Venture) : Prop where
  steady : v.watch.Steady
  same : v.link.config = config
  epochs : v.attempts.map Prod.fst = epochs
  straight : ∀ a ∈ v.attempts, a.2.Seeks false
  unranked : v.link.Unranked
  timers : v.watch.timers = []
  line : v.watch.line = []
  past : ∀ delay, .retryAfter delay ∉ v.watch.scene.past
  dials : v.dials = List.replicate v.link.attempts ⟨config.host, config.port⟩

theorem direct_start (role : Role) (config : Config) : Direct config [] (start role config) where
  steady := Watch.steady_start role config
  same := rfl
  epochs := rfl
  straight := nofun
  unranked := nofun
  timers := rfl
  line := rfl
  past := nofun
  dials := rfl

theorem straight_of_seeks {outcome : Outcome} (epoch : Nat)
    (seeks : (Attempt.ended outcome).Seeks false) : (outcome.event epoch).isStraight = true := by
  cases outcome with
  | attached socket sentinel? =>
    cases sentinel? with
    | none => rfl
    | some i => cases seeks
  | failed err retry =>
    cases seeks
    rfl

/-- the outcome of an attempt is that of the first of its epoch -/
theorem outcome?_eq_some {epoch : Nat} {outcome : Outcome} (h : v.outcome? epoch = some outcome) :
    (epoch, .ended outcome) ∈ v.attempts := by
  obtain ⟨a, found, ends⟩ := Option.bind_eq_some_iff.mp h
  obtain ⟨n, attempt⟩ := a
  have same : decide (n = epoch) = true :=
    List.find?_some (p := fun a : Nat × Attempt => decide (a.1 = epoch)) found
  obtain rfl := of_decide_eq_true same
  cases attempt with
  | ended o =>
    cases ends
    exact List.mem_of_find?_eq_some found
  | straight | through => cases ends

/-- the event that the link meets is no retry, and has nothing to do with Sentinels -/
theorem Direct.met (h : v.Direct config v.watch.scene.calls) (admits : v.Admits a) {e : Event}
    (met : v.event? a = some e) :
    v.watch.scene.Admits e ∧ e.isStraight = true ∧ e ≠ .retry := by
  cases a with
  | moment m =>
    obtain ⟨admits, plain⟩ := admits
    cases m with
    | passes | rings => cases met
    | event e' =>
      cases met
      refine ⟨admits.2, ?_, admits.1⟩
      cases e <;> first | rfl | cases plain
    | retry => exact absurd h.line admits
  | signal => cases met
  | report epoch =>
    obtain ⟨outcome, ended, rfl⟩ := Option.map_eq_some_iff.mp met
    have member := outcome?_eq_some ended
    have called : epoch ∈ v.watch.scene.calls := by
      rw [← h.epochs]
      exact List.mem_map_of_mem (f := Prod.fst) member
    refine ⟨?_, straight_of_seeks epoch (h.straight _ member), ?_⟩
    · cases outcome <;> exact called
    · cases outcome <;> exact nofun

/-- attempts start with commands that are taken in at rest -/
theorem Direct.attempts_next (h : v.Direct config v.watch.scene.calls) (admits : v.Admits a) :
    (v.next a).link.attempts = v.link.attempts + if v.accepts a then 1 else 0 := by
  rw [link_next, accepts]
  cases met : v.event? a with
  | none => rfl
  | some e =>
    obtain ⟨under, _, other⟩ := h.met admits met
    have pulse : v.link.Pulse e (v.link.step e) := Scene.pulse h.steady under
    show (v.link.step e).link.attempts = v.link.attempts + if v.link.accepts e then 1 else 0
    refine pulse.attempts_eq.trans (congrArg (v.link.attempts + ·) ?_)
    cases taken : v.link.accepts e with
    | true =>
      show ((v.link.step e).effects.filterMap Effect.call?).length = 1
      rw [(Link.connect_of_accepts taken).2]
      rfl
    | false =>
      show ((v.link.step e).effects.filterMap Effect.call?).length = 0
      rw [Link.calls_of_not_accepts pulse taken other]
      rfl

/-- a command is taken in at rest, and then there is a connection until it ends -/
theorem Direct.stake_next (h : v.Direct config v.watch.scene.calls) (admits : v.Admits a) :
    (if v.accepts a then 1 else 0) + v.link.stake ≤
      (v.next a).link.stake + ((v.event? a).bind v.link.end?).toList.length := by
  rw [link_next, accepts]
  cases met : v.event? a with
  | none =>
    show 0 + v.link.stake ≤ v.link.stake + 0
    omega
  | some e =>
    obtain ⟨under, _, other⟩ := h.met admits met
    show (if v.link.accepts e then 1 else 0) + v.link.stake ≤
      (v.link.step e).link.stake + (v.link.end? e).toList.length
    cases taken : v.link.accepts e with
    | true =>
      have phase := (Link.connect_of_accepts taken).1
      have pulse : v.link.Pulse e (v.link.step e) := Scene.pulse h.steady under
      rw [Link.stake_of_rest phase, Link.stake_of_active (Link.active_of_accepts pulse taken)]
      exact Nat.le_add_right 1 _
    | false =>
      rw [if_neg Bool.false_ne_true, Nat.zero_add]
      exact Scene.stake_step h.steady under

/-- what a turn of the link starts: the attempt of the command that is taken in -/
theorem Direct.begun {epochs : List Nat} {e : Event} (direct : config.sentinelMode = false)
    (h : v.Direct config epochs) (admits : v.watch.scene.Admits e) (other : e ≠ .retry) :
    (v.link.step e).effects.filterMap (Effect.attempt? v.link.config) =
      if v.link.accepts e then
        [(v.link.epoch + 1, .straight ⟨config.host, config.port⟩,
          [.limit config.connectTimeout, .dial ⟨config.host, config.port⟩])]
      else [] := by
  cases taken : v.link.accepts e with
  | true =>
    rw [(Link.connect_of_accepts taken).2, h.same, direct]
    rfl
  | false =>
    have pulse : v.link.Pulse e (v.link.step e) := Scene.pulse h.steady admits
    have none := epochs_begun v.link.config (v.link.step e).effects
    rw [Link.calls_of_not_accepts pulse taken other] at none
    exact List.map_eq_nil_iff.mp none

/-- a turn of the link, after the outcome that it meets is gone from the attempts -/
theorem Direct.meet {epochs : List Nat} {e : Event} (direct : config.sentinelMode = false)
    (h : v.Direct config epochs)
    (rest : epochs = e.outcome?.elim v.watch.scene.calls v.watch.scene.calls.erase)
    (admits : v.watch.scene.Admits e) (straight : e.isStraight = true) (other : e ≠ .retry) :
    (v.meet (.event e)).Direct config (v.meet (.event e)).watch.scene.calls := by
  have begun := h.begun direct admits other
  have asked := Scene.no_retryAfter h.steady h.unranked admits straight
  have counted : (v.link.step e).link.attempts =
      v.link.attempts + ((v.link.step e).effects.filterMap Effect.call?).length :=
    (Scene.pulse h.steady admits).attempts_eq
  rw [← epochs_begun v.link.config, begun] at counted
  -- the same, as the definition of `meet` spells it
  have begun' : (v.watch.effects (.event e)).filterMap (Effect.attempt? v.link.config) = _ := begun
  refine
    { steady := h.steady.meet admits
      same := (h.steady.config_meet e).trans h.same
      epochs := ?_
      straight := ?_
      unranked := Scene.unranked_step h.steady h.unranked admits straight
      timers := ?_
      line := h.line
      past := ?_
      dials := ?_ }
  · show (v.attempts ++ _).map Prod.fst = _ ++ _
    rw [List.map_append, List.map_map, h.epochs, rest]
    exact congrArg _ (epochs_begun v.link.config (v.link.step e).effects)
  · intro a member
    rcases List.mem_append.mp member with old | new
    · exact h.straight a old
    · rw [begun'] at new
      split at new
      · rw [List.mem_singleton.mp new]
        rfl
      · cases new
  · have none : (v.link.step e).effects.filterMap Effect.delay? = [] := by
      refine List.filterMap_eq_nil_iff.mpr fun x hx => ?_
      cases x with
      | retryAfter delay => exact absurd hx (asked delay)
      | _ => rfl
    show v.watch.timers ++ ((v.link.step e).effects.filterMap Effect.delay?).map _ = []
    rw [h.timers, none]
    rfl
  · intro delay member
    rcases List.mem_append.mp member with old | new
    · exact h.past delay old
    · exact asked delay new
  · show v.dials ++ _ = List.replicate (v.link.step e).link.attempts _
    rw [begun', counted, h.dials, List.replicate_add]
    split <;> rfl

/-- the network tells an attempt something, and it dials nothing more -/
theorem Direct.signal (h : v.Direct config v.watch.scene.calls) (epoch : Nat) (signal : Signal) :
    (v.next (.signal epoch signal)).Direct config v.watch.scene.calls := by
  refine
    { steady := h.steady, same := h.same, epochs := ?_, straight := ?_, unranked := h.unranked
      timers := h.timers, line := h.line, past := h.past, dials := ?_ }
  · rw [← h.epochs]
    simp only [Venture.next, List.map_map]
    refine List.map_congr_left fun a _ => ?_
    simp only [Function.comp_apply]
    split <;> rfl
  · intro a member
    simp only [Venture.next, List.map_map, List.mem_map, Function.comp_apply] at member
    obtain ⟨old, member, rfl⟩ := member
    split
    · exact (h.straight old member).step _ signal
    · exact h.straight old member
  · show v.dials ++ _ = List.replicate v.link.attempts _
    rw [h.dials, List.append_right_eq_self, List.flatMap_eq_nil_iff]
    intro told member
    obtain ⟨old, there, rfl⟩ := List.mem_map.mp member
    split
    · exact congrArg (List.filterMap Action.dial?) ((h.straight old there).silent _ signal)
    · rfl

theorem Direct.next (direct : config.sentinelMode = false)
    (h : v.Direct config v.watch.scene.calls) (admits : v.Admits a) :
    (v.next a).Direct config (v.next a).watch.scene.calls := by
  have met {e : Event} := h.met (a := a) (e := e) admits
  cases a with
  | moment m =>
    obtain ⟨under, plain⟩ := admits
    cases m with
    | passes duration =>
      have attempts : (v.next (.moment (.passes duration))).attempts = v.attempts :=
        List.append_nil _
      have dials : (v.next (.moment (.passes duration))).dials = v.dials := List.append_nil _
      exact
        { steady := h.steady, same := h.same, epochs := attempts ▸ h.epochs
          straight := attempts ▸ h.straight, unranked := h.unranked, timers := h.timers
          line := h.line, past := h.past, dials := dials.trans h.dials }
    | event e =>
      obtain ⟨admits, straight, other⟩ := met rfl
      refine h.meet direct ?_ admits straight other
      have none : e.outcome? = none := plain
      rw [none]
      rfl
    | rings instant =>
      -- no timer is set, so none goes off, and no retry gets in line
      have there : instant ∈ v.watch.timers := under.1
      rw [h.timers] at there
      cases there
    | retry => exact absurd h.line under
  | signal epoch signal => exact h.signal epoch signal
  | report epoch =>
    obtain ⟨outcome, ended⟩ := Option.isSome_iff_exists.mp admits
    obtain ⟨admits, straight, other⟩ := met (congrArg (Option.map (Outcome.event epoch)) ended)
    have fewer : ({ v with attempts := v.attempts.eraseP fun a => a.1 = epoch } : Venture).Direct
        config (v.watch.scene.calls.erase epoch) :=
      { h with
        epochs := by
          rw [← h.epochs, List.erase_eq_eraseP, List.eraseP_map]
          refine congrArg (fun p => (v.attempts.eraseP p).map Prod.fst) (funext fun a => ?_)
          exact decide_eq_decide.mpr eq_comm
        straight := fun a member => h.straight a (List.mem_of_mem_eraseP member) }
    have rest : v.watch.scene.calls.erase epoch = (outcome.event epoch).outcome?.elim
        v.watch.scene.calls v.watch.scene.calls.erase := by
      cases outcome <;> rfl
    rw [Venture.next, ended]
    exact fewer.meet direct rest admits straight other

/-! ## courses of acts -/

theorem Direct.run (direct : config.sentinelMode = false)
    (h : v.Direct config v.watch.scene.calls) (plays : v.Plays acts) :
    (v.run acts).Direct config (v.run acts).watch.scene.calls := by
  induction acts generalizing v with
  | nil => exact h
  | cons a rest ih => exact ih (h.next direct plays.1) plays.2

/-- attempts are as many as commands are taken in at rest -/
theorem Direct.attempts_run (direct : config.sentinelMode = false)
    (h : v.Direct config v.watch.scene.calls) (plays : v.Plays acts) :
    (v.run acts).link.attempts = v.link.attempts + v.accepted acts := by
  induction acts generalizing v with
  | nil => rfl
  | cons a rest ih =>
    have later := ih (h.next direct plays.1) plays.2
    rw [h.attempts_next plays.1, Nat.add_assoc] at later
    exact later

/-- commands are taken in at rest when it begins, and after each connection that ends -/
theorem Direct.accepted_le (direct : config.sentinelMode = false)
    (h : v.Direct config v.watch.scene.calls) (plays : v.Plays acts) :
    v.accepted acts + v.link.stake ≤ (v.run acts).link.stake + v.ended acts := by
  induction acts generalizing v with
  | nil => exact Nat.le_of_eq (Nat.add_comm _ _)
  | cons a rest ih =>
    have first := h.stake_next plays.1
    have later := ih (h.next direct plays.1) plays.2
    show (_ + _) + _ ≤ ((v.next a).run rest).link.stake + (_ + _)
    omega

theorem plays_append {a b : List Act} : v.Plays (a ++ b) ↔ v.Plays a ∧ (v.run a).Plays b := by
  induction a generalizing v with
  | nil => exact (and_iff_right trivial).symm
  | cons act rest ih => exact (and_congr_right fun _ => ih).trans and_assoc.symm

end

/-- **Every dial has a reason.**  In every course of acts of a link that does not go through
Sentinels: a connect attempt starts with a command that is taken in while the link is at rest, one
with each, and with nothing else; each dials the server of the configuration once.  So there are as
many dials as such commands.  No retry is asked for, no timer is set.  And in any stretch of acts
there is one attempt more than connections end or attempts fail, at most. -/
theorem dials_of_direct (role : Role) (config : Config) (direct : config.sentinelMode = false)
    (acts : List Act) (plays : (start role config).Plays acts) :
    let v := (start role config).run acts
    let server : Endpoint := ⟨config.host, config.port⟩
    (∀ a, v.Admits a →
      (v.next a).link.attempts = v.link.attempts + (if v.accepts a then 1 else 0) ∧
      (v.next a).dials = v.dials ++ if v.accepts a then [server] else []) ∧
    v.link.attempts = (start role config).accepted acts ∧
    v.dials = List.replicate ((start role config).accepted acts) server ∧
    (∀ delay, .retryAfter delay ∉ v.watch.scene.past) ∧
    v.watch.timers = [] ∧ v.watch.line = [] ∧
    ∀ before batch, acts = before ++ batch →
      let u := (start role config).run before
      u.accepted batch ≤ 1 + u.ended batch := by
  intro v server
  have started := direct_start role config
  have h : v.Direct config v.watch.scene.calls := started.run direct plays
  have counted : v.link.attempts = (start role config).accepted acts :=
    (started.attempts_run direct plays).trans (Nat.zero_add _)
  refine ⟨fun a admits => ?_, counted, ?_, h.past, h.timers, h.line, ?_⟩
  · have attempts := h.attempts_next admits
    refine ⟨attempts, ?_⟩
    rw [(h.next direct admits).dials, h.dials, attempts, List.replicate_add]
    split <;> rfl
  · rw [h.dials, counted]
  · rintro before batch rfl u
    obtain ⟨earlier, later⟩ := plays_append.mp plays
    have bound := (started.run direct earlier).accepted_le direct later
    have one : ((u.run batch).link.stake) ≤ 1 := Link.stake_le_one _
    show u.accepted batch ≤ 1 + u.ended batch
    exact Nat.le_trans (Nat.le_add_right _ _) (Nat.le_trans bound (Nat.add_le_add_right one _))

/-- two commands share an attempt, and after its dial is refused a third one brings another -/
theorem dials_of_direct_of_three :
    let ping (t : Ticket) := Command.ofRequest t (Request.ofVerb "PING") .utf8
    let acts : List Act := [.moment (.event (.send (ping 1))), .moment (.event (.send (ping 2))),
      .signal 1 (.refused ⟨"ConnectionRefused", "refused"⟩), .report 1, .moment (.passes 400),
      .moment (.event (.send (ping 3))), .signal 3 (.connected (.fresh 7)),
      .report 3]
    let server : Endpoint := ⟨Config.default.host, Config.default.port⟩
    (start .command .default).accepted acts = 2 ∧
      ((start .command .default).run acts).dials = [server, server] ∧
      ((start .command .default).run acts).watch.timers = [] := by
  intro ping acts server
  have plays : (start .command .default).Plays acts := by decide +kernel
  have two : (start .command .default).accepted acts = 2 := by decide +kernel
  obtain ⟨_, _, dials, _, timers, _⟩ := dials_of_direct .command .default rfl acts plays
  rw [two] at dials
  exact ⟨two, dials, timers⟩

end Venture
end RespLink
