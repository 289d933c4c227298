import RespLink.Proofs.Retries
import RespLink.Proofs.Searches

/-!
# Timers

A failure with a retry in mind sets a timer.  A timer that goes off does not touch the link: its
retry gets in line behind whatever else the link is to meet, so events, sends and disconnects come
before it, between it and other retries, and after it.

* `Watch`         a scene with a clock, the timers that are set and the retries in line;
* `Moment`        what can happen next, time that passes included;
* `Link.end?`     the end that an event brings to a connection; a watch remembers the last one;
* `Watch.Armed`   a retry is outstanding after a failure that wants one: as long as the link is at
                  rest, and in time;
* `Watch.Ready`   it is kept from moment to moment: a link comes to rest by an end only, and an end
                  with a retry in mind sets a timer of its own;
* `no_lost_retry` what follows for every course of moments.
-/

namespace RespLink

/-- how long a retry is to wait -/
def Effect.delay? : Effect → Option Nat
  | retryAfter delay => some delay
  | _ => none

/-- how the connection ends with this event, if it does -/
def Link.end? (l : Link) (e : Event) : Option End :=
  match l.phase.isActive, l.progress e with
  | true, .upTo _ d => some d
  | _, _ => none

/-! ## watches -/

structure Watch where
  scene : Scene
  now : Nat
  /-- the instants at which timers go off that have not done so yet -/
  timers : List Nat
  /-- those of the timers whose retries the link has not met yet -/
  line : List Nat
  /-- the last end of a connection, and when it came -/
  last? : Option (Nat × End)

inductive Moment where
  | passes (duration : Nat)
  /-- the link meets an event that is no retry -/
  | event (e : Event)
  /-- a timer goes off, at its instant or later -/
  | rings (instant : Nat)
  /-- the link meets the next retry in line -/
  | retry
deriving DecidableEq

namespace Watch

def start (role : Role) (config : Config) : Watch := ⟨.start role config, 0, [], [], none⟩

def Admits (w : Watch) : Moment → Prop
  | .passes _ => True
  | .event e => e ≠ .retry ∧ w.scene.Admits e
  | .rings instant => instant ∈ w.timers ∧ instant ≤ w.now
  | .retry => w.line ≠ []

/-- the link meets an event -/
def meet (w : Watch) (e : Event) : Watch :=
  { w with
    scene := w.scene.next e
    timers := w.timers
      ++ ((w.scene.link.step e).effects.filterMap Effect.delay?).map fun delay => w.now + delay
    last? := ((w.scene.link.end? e).map fun d => (w.now, d)).or w.last? }

def next (w : Watch) : Moment → Watch
  | .passes duration => { w with now := w.now + duration }
  | .event e => w.meet e
  | .rings instant =>
    { w with timers := w.timers.erase instant, line := w.line ++ [instant] }
  | .retry => { w with line := w.line.tail }.meet .retry

def run (w : Watch) (moments : List Moment) : Watch := moments.foldl next w

def Plays : Watch → List Moment → Prop
  | _, [] => True
  | w, m :: rest => w.Admits m ∧ (w.next m).Plays rest

instance (w : Watch) (m : Moment) : Decidable (w.Admits m) :=
  match m with
  | .passes _ => inferInstanceAs (Decidable True)
  | .event e => inferInstanceAs (Decidable (e ≠ .retry ∧ w.scene.Admits e))
  | .rings instant => inferInstanceAs (Decidable (instant ∈ w.timers ∧ instant ≤ w.now))
  | .retry => inferInstanceAs (Decidable (w.line ≠ []))

/-- a retry is outstanding after a failure that wants one: its timer was due in time, and it has not
gone off, or the retry is in line -/
def Armed (w : Watch) : Prop :=
  w.scene.link.phase = .disconnected →
    ∀ since why, w.last? = some (since, .lost why) → why.retries = true →
      ∃ instant ∈ w.timers ++ w.line, instant ≤ since + w.scene.link.config.retryInterval

/-- what holds from moment to moment -/
structure Ready (config : Config) (w : Watch) : Prop where
  sound : w.scene.Sound
  config : w.scene.link.config = config
  armed : w.Armed

section
variable {w : Watch} {e : Event} {m : Moment} {config : Config}

theorem ready_start (role : Role) (config : Config) : Ready config (start role config) where
  sound := Scene.sound_start role config
  config := rfl
  armed _ _ _ last _ := nomatch last

/-! ## events -/

theorem end?_of_progress {l : Link} {before : Turn} {d : End} (active : l.phase.isActive = true)
    (told : l.progress e = .upTo before d) : l.end? e = some d := by
  rw [Link.end?, active, told]

theorem end?_of_idle {l : Link} (idle : l.phase.isActive = false) (e : Event) :
    l.end? e = none := by
  rw [Link.end?, idle]

theorem config_meet (sound : w.scene.Sound) (e : Event) :
    (w.meet e).scene.link.config = w.scene.link.config := by
  obtain ⟨_, _, moves, _⟩ := Link.step_leads sound.settled e
  exact moves.same.2

/-- after an event on an active link nothing depends on earlier retries: if the link comes to rest,
it does so by an end, and an end that wants a retry asks for it -/
theorem armed_meet_of_active (sound : w.scene.Sound) (running : w.scene.link.stopped = false)
    (active : w.scene.link.phase.isActive = true) (admits : w.scene.Admits e) :
    (w.meet e).Armed := by
  intro phase since why last retries
  have phase : (w.scene.link.step e).link.phase = .disconnected := phase
  have tells := sound.tells running active admits
  have lasts := tells.lasts
  cases told : w.scene.link.progress e with
  | through t =>
    rw [told] at lasts
    have whole : t = w.scene.link.step e :=
      (congrArg Progress.whole told).symm.trans tells.whole
    have still : t.link.phase.isActive = true := lasts.active active
    rw [whole, phase] at still
    cases still
  | upTo before d =>
    have now : (w.meet e).last? = some (w.now, d) := by
      show ((w.scene.link.end? e).map _).or _ = _
      rw [end?_of_progress active told]
      rfl
    rw [now] at last
    cases last
    have asked := (sound.retryAfter_iff running active admits _).mpr
      ⟨rfl, before, why, told, retries⟩
    have delays : w.scene.link.config.retryInterval ∈
        (w.scene.link.step e).effects.filterMap Effect.delay? :=
      List.mem_filterMap.mpr ⟨_, asked, rfl⟩
    rw [config_meet sound e]
    refine ⟨w.now + w.scene.link.config.retryInterval, ?_, Nat.le_refl _⟩
    exact List.mem_append_left _ (List.mem_append_right _ (List.mem_map_of_mem delays))

/-- a link at rest leaves timers and retries alone, or it is connecting -/
theorem armed_meet_of_rest (armed : w.Armed) (sound : w.scene.Sound)
    (running : w.scene.link.stopped = false) (idle : w.scene.link.phase.isActive = false)
    (admits : w.scene.Admits e) (lasting : e ≠ .shutdown) : (w.meet e).Armed := by
  have last : (w.meet e).last? = w.last? := by
    show ((w.scene.link.end? e).map _).or _ = _
    rw [end?_of_idle idle]
    rfl
  have rouses := sound.rouses running idle admits
  intro phase since why earlier retries
  have phase : (w.scene.link.step e).link.phase = .disconnected := phase
  show ∃ instant ∈ (w.timers ++ _) ++ w.line,
    instant ≤ since + (w.scene.link.step e).link.config.retryInterval
  rw [last] at earlier
  generalize w.scene.link.step e = t at rouses phase ⊢
  cases rouses with
  | stays quiet =>
    obtain ⟨instant, member, due⟩ := armed phase since why earlier retries
    refine ⟨instant, ?_, due⟩
    rcases List.mem_append.mp member with timer | waits
    · exact List.mem_append_left _ (List.mem_append_left _ timer)
    · exact List.mem_append_right _ waits
  | calls => cases phase
  | stops asked => exact absurd asked lasting

/-- a retry that is met by a link at rest starts one attempt -/
theorem step_retry_of_rest {l : Link} (running : l.stopped = false)
    (phase : l.phase = .disconnected) :
    l.step .retry =
      ⟨{ l with
          phase := .connecting, epoch := l.epoch + 1, attempts := l.attempts + 1, parser := .empty },
        [.dial (l.epoch + 1) (if l.config.sentinelMode then some l.sentinels else none)]⟩ := by
  rw [Link.step_of_running running]
  exact if_pos phase

/-- any other link overlooks it -/
theorem step_retry_of_busy {l : Link} (running : l.stopped = false)
    (phase : l.phase ≠ .disconnected) : l.step .retry = .of l := by
  rw [Link.step_of_running running]
  exact if_neg phase

/-! ## moments -/

/-- a link that runs after a moment has run before it, and the moment is not its end -/
theorem running_of_next (running : (w.next m).scene.link.stopped = false) :
    w.scene.link.stopped = false ∧ m ≠ .event .shutdown := by
  cases m with
  | passes duration => exact ⟨running, nofun⟩
  | event e =>
    obtain ⟨before, lasting⟩ := @Scene.running_of_next w.scene e [] running
    refine ⟨before, ?_⟩
    rintro ⟨⟩
    exact lasting rfl
  | rings instant => exact ⟨running, nofun⟩
  | retry => exact ⟨(@Scene.running_of_next w.scene .retry [] running).1, nofun⟩

theorem Ready.next (ready : w.Ready config) (running : w.scene.link.stopped = false)
    (admits : w.Admits m) (lasting : m ≠ .event .shutdown) : (w.next m).Ready config := by
  obtain ⟨sound, same, armed⟩ := ready
  cases m with
  | passes duration => exact ⟨sound, same, armed⟩
  | event e =>
    have last : e ≠ .shutdown := fun is => lasting (is ▸ rfl)
    refine ⟨sound.next running admits.2 last, (config_meet sound e).trans same, ?_⟩
    cases active : w.scene.link.phase.isActive with
    | true => exact armed_meet_of_active sound running active admits.2
    | false => exact armed_meet_of_rest armed sound running active admits.2 last
  | rings instant =>
    refine ⟨sound, same, fun phase since why last retries => ?_⟩
    obtain ⟨due, member, intime⟩ := armed phase since why last retries
    refine ⟨due, ?_, intime⟩
    show due ∈ w.timers.erase instant ++ (w.line ++ [instant])
    rcases List.mem_append.mp member with timer | waits
    · by_cases this : due = instant
      · exact List.mem_append_right _ (List.mem_append_right _ (List.mem_singleton.mpr this))
      · exact List.mem_append_left _ ((List.mem_erase_of_ne this).mpr timer)
    · exact List.mem_append_right _ (List.mem_append_left _ waits)
  | retry =>
    have under : w.scene.Admits .retry := trivial
    refine ⟨sound.next running under nofun, (config_meet sound .retry).trans same, ?_⟩
    cases active : w.scene.link.phase.isActive with
    | true =>
      exact armed_meet_of_active (w := { w with line := w.line.tail }) sound running active under
    | false =>
      -- the retry is used up, but the link is connecting now
      intro phase
      have phase : (w.scene.link.step .retry).link.phase = .disconnected := phase
      rw [step_retry_of_rest running (sound.phase_of_not_active active)] at phase
      cases phase

theorem running_of_run {moments : List Moment}
    (running : (w.run moments).scene.link.stopped = false) : w.scene.link.stopped = false := by
  induction moments generalizing w with
  | nil => exact running
  | cons m rest ih => exact (running_of_next (ih running)).1

theorem Ready.run {moments : List Moment} (ready : w.Ready config) (plays : w.Plays moments)
    (running : (w.run moments).scene.link.stopped = false) : (w.run moments).Ready config := by
  induction moments generalizing w with
  | nil => exact ready
  | cons m rest ih =>
    obtain ⟨before, lasting⟩ := @running_of_next w m (running_of_run running)
    exact ih (ready.next before plays.1 lasting) plays.2 running

end

/-- **No retry is lost.**  In every course of moments, as long as the link runs: when it is at rest
and its last connection ended because no Sentinel led to a master or the peer was none, a retry is
outstanding whose timer was due in time, whatever was sent and whichever retries were met since.  A
retry that is met starts one attempt on a link at rest, and does nothing to any other link.  With
Sentinels an attempt fails only when all of them were asked in vain, and always asks for a retry. -/
theorem no_lost_retry (role : Role) (config : Config) (moments : List Moment)
    (plays : (start role config).Plays moments)
    (running : ((start role config).run moments).scene.link.stopped = false) :
    let w := (start role config).run moments
    let l := w.scene.link
    (l.phase = .disconnected → ∀ since why, w.last? = some (since, .lost why) →
      (why = .notMaster ∨ ∃ err, why = .unreachable err true) →
        ∃ instant ∈ w.timers ++ w.line, instant ≤ since + config.retryInterval) ∧
    (l.phase = .disconnected → (l.step .retry).link.attempts = l.attempts + 1 ∧
      (l.step .retry).effects =
        [.dial (l.epoch + 1) (if config.sentinelMode then some l.sentinels else none)]) ∧
    (l.phase ≠ .disconnected → l.step .retry = .of l) ∧
    ∀ signals err retry,
      Attempt.after config (some l.sentinels) signals = .ended (.failed err retry) →
        err = .sentinel "failed to connect sentinels" ∧ retry = true := by
  intro w l
  have ready := (ready_start role config).run plays running
  refine ⟨fun phase since why last wants => ?_, fun phase => ?_, step_retry_of_busy running,
    fun signals err retry => Attempt.failed_of_after⟩
  · have armed := ready.armed phase since why last ((Cause.retries_iff why).mpr wants)
    rw [ready.config] at armed
    exact armed
  · rw [step_retry_of_rest running phase, ready.config]
    exact ⟨rfl, rfl⟩

/-- the attempt of one command fails, and a tenth of a second later the peer that the next attempt
leads to is no master; then the first timer goes off, and a disconnect finds nothing to end -/
theorem no_lost_retry_of_two :
    let config := Config.default.withSentinel "main" [⟨"s1", 26379⟩]
    let ping (t : Ticket) := Command.ofRequest t (Request.ofVerb "PING") .utf8
    let moments : List Moment := [.event (.send (ping 1)),
      .event (.connectFailed 1 (.sentinel "failed to connect sentinels") true), .passes 100,
      .event (.send (ping 2)), .event (.attached 3 (.fresh 7) (some 0)),
      .event (.data 3 (Utf8.encode "*1\r\n$5\r\nslave\r\n")), .passes 250, .rings 300,
      .event (.disconnect 3)]
    let w := (start .command config).run moments
    w.timers = [400] ∧ w.line = [300] ∧ ∃ instant ∈ w.timers ++ w.line, instant ≤ 400 := by
  intro config ping moments w
  have plays : (start .command config).Plays moments :=
    ⟨⟨nofun, Command.fresh_ofRequest _ _ _⟩, ⟨nofun, List.mem_singleton.mpr rfl⟩, trivial,
      ⟨nofun, Command.fresh_ofRequest _ _ _⟩, ⟨nofun, List.mem_singleton.mpr rfl⟩,
      ⟨nofun, ⟨3, 7, some 0⟩, by decide, rfl⟩, trivial, by decide +kernel, ⟨nofun, trivial⟩, trivial⟩
  have last : w.last? = some (100, .lost .notMaster) := by decide +kernel
  exact ⟨by decide +kernel, by decide +kernel,
    (no_lost_retry .command config moments plays (by decide +kernel)).1 (by decide +kernel) 100
      .notMaster last (.inl rfl)⟩

end Watch
end RespLink
