import RespLink.Proofs.Timers

/-!
# How retries are spaced

A retry goes from hand to hand: it is outstanding, then it is the attempt that it starts, and it is
outstanding again when that attempt fails.  So retries do not breed; but each command that starts an
attempt brings one more into play, also while another is outstanding.

* `Link.Pulse`      what a turn asks for: nothing, a connect attempt, or a retry;
* `Watch.credit`    the retries that are outstanding, and the connection that may become one;
* `Watch.summoned`, `Watch.revivals`   the attempts that commands start, and when retries do;
* `credit_run`      the credit grows by what commands start, and by nothing else;
* `revivals_le`     in less than the retry interval only what was outstanding starts anything;
* `Watch.Patient`   no command starts an attempt while a retry is outstanding;
* `Watch.Spaced`    what patience keeps from moment to moment;
* `retries_spaced`  what follows for every course of moments, and `retries_crowd`, what impatience
                    leads to.
-/

namespace RespLink

namespace Link

/-- what the turn of an event asks for -/
inductive Pulse (l : Link) (e : Event) (t : Turn) : Prop
  | quiet (quiet : ∀ x ∈ t.effects, x.isAsking = false) (attempts : t.link.attempts = l.attempts)
    (active : t.link.phase.isActive = true → l.phase.isActive = true)
  /-- a link at rest starts a connect attempt -/
  | calls (phase : l.phase = .disconnected) (cause : e = .retry ∨ ∃ c, e = .send c)
    (active : t.link.phase.isActive = true) (attempts : t.link.attempts = l.attempts + 1)
    (effects : t.effects =
      [.dial (l.epoch + 1) (if l.config.sentinelMode then some l.sentinels else none)])
  /-- a connection ends with a retry in mind -/
  | fails (before why es) (active : l.phase.isActive = true)
    (told : l.progress e = .upTo before (.lost why)) (retries : why.retries = true)
    (phase : t.link.phase = .disconnected) (attempts : t.link.attempts = l.attempts)
    (effects : t.effects = es ++ [.retryAfter l.config.retryInterval])
    (quiet : ∀ x ∈ es, x.isAsking = false)

section
variable {l : Link} {es : List Effect}

theorem delays_of_quiet (quiet : ∀ x ∈ es, x.isAsking = false) :
    es.filterMap Effect.delay? = [] := by
  refine List.filterMap_eq_nil_iff.mpr fun x hx => ?_
  have calm := quiet x hx
  cases x <;> first | rfl | cases calm

theorem calls_of_quiet (quiet : ∀ x ∈ es, x.isAsking = false) :
    es.filterMap Effect.call? = [] := by
  refine List.filterMap_eq_nil_iff.mpr fun x hx => ?_
  have calm := quiet x hx
  cases x <;> first | rfl | cases calm

theorem pulse_of_stopped (stopped : l.stopped = true) (e : Event) : l.Pulse e (l.step e) := by
  rw [step_of_stopped stopped]
  have one {x : Effect} (quiet : x.isAsking = false) : l.Pulse e ⟨l, [x]⟩ :=
    .quiet (quiet_one quiet) rfl id
  cases e with
  | send c => exact one rfl
  | disconnect t => exact one rfl
  | attached epoch socket sentinel? => exact one rfl
  | _ => exact .quiet (List.forall_mem_nil _) rfl id

/-- a connection that there is, or is to be -/
def stake (l : Link) : Nat := if l.phase.isActive then 1 else 0

theorem stake_of_active (active : l.phase.isActive = true) : l.stake = 1 := if_pos active

theorem stake_of_rest (phase : l.phase = .disconnected) : l.stake = 0 := by
  rw [stake, phase]
  rfl

theorem stake_le_one (l : Link) : l.stake ≤ 1 := by
  unfold stake
  split <;> decide

/-- **What is asked for is paid for**: a retry with a connection, a connection with an attempt. -/
theorem Pulse.balance {e : Event} {t : Turn} (h : l.Pulse e t) :
    (t.effects.filterMap Effect.delay?).length + t.link.stake ≤
      l.stake + (t.effects.filterMap Effect.call?).length := by
  cases h with
  | quiet quiet attempts active =>
    rw [delays_of_quiet quiet, calls_of_quiet quiet]
    show 0 + t.link.stake ≤ l.stake + 0
    cases now : t.link.phase.isActive with
    | true =>
      have after := stake_of_active now
      have before := stake_of_active (active now)
      omega
    | false => rw [stake, now]; exact Nat.zero_le _
  | calls phase cause active attempts effects =>
    rw [effects, stake_of_active active, stake_of_rest phase]
    exact Nat.le_refl 1
  | fails before why es active told retries phase attempts effects quiet =>
    rw [effects, List.filterMap_append, List.filterMap_append, delays_of_quiet quiet,
      calls_of_quiet quiet, stake_of_rest phase, stake_of_active active]
    exact Nat.le_refl 1

/-- an attempt starts from rest -/
theorem Pulse.calls_cases {e : Event} {t : Turn} (h : l.Pulse e t) :
    t.effects.filterMap Effect.call? = [] ∨
      l.phase = .disconnected ∧ t.effects.filterMap Effect.call? = [l.epoch + 1] := by
  cases h with
  | quiet quiet => exact .inl (calls_of_quiet quiet)
  | calls phase _ _ _ effects => exact .inr ⟨phase, by rw [effects]; rfl⟩
  | fails _ _ es _ _ _ _ _ effects quiet =>
    rw [effects, List.filterMap_append, calls_of_quiet quiet]
    exact .inl rfl

end
end Link

namespace Scene
section
variable {s : Scene} {e : Event}

theorem Sound.pulse_of_active (sound : s.Sound) (running : s.link.stopped = false)
    (active : s.link.phase.isActive = true) (admits : s.Admits e) :
    s.link.Pulse e (s.link.step e) := by
  have tells := sound.tells running active admits
  have lasts := tells.lasts
  cases told : s.link.progress e with
  | through u =>
    have quiet := tells.quiet
    rw [told] at lasts quiet
    rw [← tells.whole, told]
    exact .quiet quiet lasts.attempts fun _ => active
  | upTo before d =>
    have phase := (sound.rests_of_ended running active admits told).phase
    rw [told, Progress.turn_upTo] at lasts
    have attempts : (s.link.step e).link.attempts = s.link.attempts := by
      rw [← tells.whole, told]
      exact (Link.letGo_attempts (lasts.active active) d).trans lasts.attempts
    by_cases marked : ∃ why, d = .lost why ∧ why.retries = true
    · obtain ⟨why, rfl, retries⟩ := marked
      have effects := (sound.drains running active admits told).effects
      rw [if_pos retries] at effects
      have quiet := tells.quiet
      rw [told] at quiet
      refine .fails before why _ active told retries phase attempts effects fun x hx => ?_
      rcases List.mem_append.mp hx with first | released
      · rcases List.mem_append.mp first with early | failed
        · exact quiet x early
        · exact Link.quiet_failures _ _ x failed
      · obtain ⟨_, _, rfl⟩ := List.mem_map.mp released
        rfl
    · refine .quiet (sound.quiet_of_ended running active admits told fun why is => ?_) attempts
        fun _ => active
      exact eq_false_of_ne_true fun retries => marked ⟨why, is, retries⟩

theorem Sound.pulse_of_rest (sound : s.Sound) (running : s.link.stopped = false)
    (idle : s.link.phase.isActive = false) (admits : s.Admits e) :
    s.link.Pulse e (s.link.step e) := by
  have rouses := sound.rouses running idle admits
  have phase := sound.phase_of_not_active idle
  generalize s.link.step e = t at rouses
  cases rouses with
  | stays quiet => exact .quiet quiet rfl id
  | calls pending registry cause => exact .calls phase cause rfl rfl rfl
  | stops =>
    have idles := Link.idles_shutdown s.link
    exact .quiet idles.quiet idles.attempts nofun

/-- **A turn asks for one thing at most**, and never both for an attempt and for a retry. -/
theorem pulse (sound : s.link.stopped = false → s.Sound) (admits : s.Admits e) :
    s.link.Pulse e (s.link.step e) := by
  cases running : s.link.stopped with
  | true => exact Link.pulse_of_stopped running e
  | false =>
    cases active : s.link.phase.isActive with
    | true => exact (sound running).pulse_of_active running active admits
    | false => exact (sound running).pulse_of_rest running active admits

end
end Scene

namespace Watch

/-! ## counting -/

/-- the instants of the retries that are still to come -/
def outstanding (w : Watch) : List Nat := w.timers ++ w.line

/-- without the next retry in line -/
def served (w : Watch) : Watch := { w with line := w.line.tail }

/-- the retries that are still to come, and a connection that may ask for one -/
def credit (w : Watch) : Nat := w.outstanding.length + w.scene.link.stake

/-- what the link asks for at this moment, and notes -/
def effects (w : Watch) : Moment → List Effect
  | .event e => (w.scene.link.step e).effects
  | .retry => (w.scene.link.step .retry).effects
  | _ => []

/-- the epochs of the connect attempts that start at this moment -/
def calls (w : Watch) (m : Moment) : List Nat := (w.effects m).filterMap Effect.call?

/-- the attempts that commands start -/
def summoned : Watch → List Moment → Nat
  | _, [] => 0
  | w, m :: rest => (if m = .retry then 0 else (w.calls m).length) + (w.next m).summoned rest

/-- the instants at which retries start attempts -/
def revivals : Watch → List Moment → List Nat
  | _, [] => []
  | w, m :: rest =>
    (if m = .retry then (w.calls m).map fun _ => w.now else []) ++ (w.next m).revivals rest

/-- no command starts an attempt while a retry is outstanding -/
def Patient : Watch → List Moment → Prop
  | _, [] => True
  | w, m :: rest => (m = .retry ∨ w.calls m = [] ∨ w.outstanding = []) ∧ (w.next m).Patient rest

instance decidablePlays : (w : Watch) → (moments : List Moment) → Decidable (w.Plays moments)
  | _, [] => inferInstanceAs (Decidable True)
  | w, m :: rest =>
    have := decidablePlays (w.next m) rest
    inferInstanceAs (Decidable (w.Admits m ∧ (w.next m).Plays rest))

instance decidablePatient : (w : Watch) → (moments : List Moment) → Decidable (w.Patient moments)
  | _, [] => inferInstanceAs (Decidable True)
  | w, m :: rest =>
    have := decidablePatient (w.next m) rest
    inferInstanceAs (Decidable
      ((m = .retry ∨ w.calls m = [] ∨ w.outstanding = []) ∧ (w.next m).Patient rest))

/-- as long as the link runs its scene is sound -/
def Steady (w : Watch) : Prop := w.scene.link.stopped = false → w.scene.Sound

section
variable {w : Watch} {e : Event} {m : Moment} {config : Config} {moments : List Moment}

theorem steady_start (role : Role) (config : Config) : (start role config).Steady :=
  fun _ => Scene.sound_start role config

theorem Steady.meet (steady : w.Steady) (admits : w.scene.Admits e) : (w.meet e).Steady := by
  intro running
  obtain ⟨before, lasting⟩ := @Scene.running_of_next w.scene e [] running
  exact (steady before).next before admits lasting

theorem Steady.next (steady : w.Steady) (admits : w.Admits m) : (w.next m).Steady := by
  cases m with
  | passes | rings => exact steady
  | event e => exact steady.meet admits.2
  | retry => exact Steady.meet (w := w.served) (e := .retry) steady trivial

theorem Steady.config_meet (steady : w.Steady) (e : Event) :
    (w.meet e).scene.link.config = w.scene.link.config := by
  cases running : w.scene.link.stopped with
  | true =>
    have still : (w.scene.next e).link = w.scene.link := Link.run_of_stopped running [e]
    exact congrArg Link.config still
  | false => exact Watch.config_meet (steady running) e

/-! ## what is outstanding -/

/-- the instants of the timers that are set with an event -/
def newTimers (w : Watch) (e : Event) : List Nat :=
  ((w.scene.link.step e).effects.filterMap Effect.delay?).map fun delay => w.now + delay

theorem outstanding_meet (w : Watch) (e : Event) :
    (w.meet e).outstanding.Perm (w.outstanding ++ w.newTimers e) := by
  show ((w.timers ++ w.newTimers e) ++ w.line).Perm ((w.timers ++ w.line) ++ w.newTimers e)
  rw [List.append_assoc, List.append_assoc]
  exact List.perm_append_comm.append_left w.timers

theorem outstanding_rings {instant : Nat} (there : instant ∈ w.timers) :
    (w.next (.rings instant)).outstanding.Perm w.outstanding := by
  show (w.timers.erase instant ++ (w.line ++ [instant])).Perm (w.timers ++ w.line)
  rw [← List.append_assoc]
  refine (List.perm_append_singleton _ _).trans ?_
  exact ((List.perm_cons_erase there).append_right w.line).symm

theorem outstanding_served (waits : w.line ≠ []) : ∃ instant ∈ w.line,
    w.outstanding.Perm (instant :: w.served.outstanding) := by
  obtain ⟨instant, rest, line⟩ := List.exists_cons_of_ne_nil waits
  refine ⟨instant, by rw [line]; exact List.mem_cons_self, ?_⟩
  rw [outstanding, served, outstanding, line]
  exact List.perm_middle

/-- the timer that is set, if one is, goes off after the retry interval -/
theorem Steady.newTimers_eq (steady : w.Steady) (admits : w.scene.Admits e) :
    w.newTimers e = [] ∨ w.newTimers e = [w.now + w.scene.link.config.retryInterval] := by
  unfold newTimers
  cases Scene.pulse steady admits with
  | quiet quiet =>
    rw [Link.delays_of_quiet quiet]
    exact .inl rfl
  | calls _ _ _ _ effects =>
    rw [effects]
    exact .inl rfl
  | fails _ _ es _ _ _ _ _ effects quiet =>
    rw [effects, List.filterMap_append, Link.delays_of_quiet quiet]
    exact .inr rfl

/-- a retry starts one attempt at most -/
theorem Steady.calls_retry (steady : w.Steady) : (w.calls .retry).length ≤ 1 := by
  have under : w.scene.Admits .retry := trivial
  show ((w.scene.link.step .retry).effects.filterMap Effect.call?).length ≤ 1
  rcases (Scene.pulse steady under).calls_cases with none | ⟨_, one⟩
  · rw [none]
    exact Nat.zero_le 1
  · rw [one]
    exact Nat.le_refl 1

/-- a retry sets no timer when it is met -/
theorem Steady.newTimers_retry (steady : w.Steady) : w.newTimers .retry = [] := by
  have under : w.scene.Admits .retry := trivial
  unfold newTimers
  cases Scene.pulse steady under with
  | quiet quiet => rw [Link.delays_of_quiet quiet]; rfl
  | calls _ _ _ _ effects => rw [effects]; rfl
  | fails _ _ _ _ told => cases told

/-! ## credit -/

theorem Steady.credit_meet (steady : w.Steady) (admits : w.scene.Admits e) :
    (w.meet e).credit ≤
      w.credit + ((w.scene.link.step e).effects.filterMap Effect.call?).length := by
  have balance := (Scene.pulse steady admits).balance
  have length := (w.outstanding_meet e).length_eq
  rw [List.length_append, newTimers, List.length_map] at length
  rw [credit, credit, length]
  show _ + (w.scene.link.step e).link.stake ≤ _
  omega

theorem Steady.credit_next (steady : w.Steady) (admits : w.Admits m) :
    (w.next m).credit ≤ w.credit + if m = .retry then 0 else (w.calls m).length := by
  cases m with
  | passes duration => exact Nat.le_refl _
  | event e =>
    rw [if_neg nofun]
    exact steady.credit_meet admits.2
  | rings instant =>
    have same : (w.next (.rings instant)).credit = w.credit :=
      congrArg (· + w.scene.link.stake) (outstanding_rings admits.1).length_eq
    rw [same]
    exact Nat.le_add_right _ _
  | retry =>
    rw [if_pos rfl]
    have met : (w.served.meet .retry).credit ≤ w.served.credit + (w.calls .retry).length :=
      Steady.credit_meet (w := w.served) steady trivial
    have one := steady.calls_retry
    obtain ⟨_, _, used⟩ := outstanding_served admits
    have less : w.credit = w.served.credit + 1 := by
      rw [credit, credit, used.length_eq, List.length_cons]
      show _ + 1 + w.scene.link.stake = _ + w.scene.link.stake + 1
      omega
    show (w.served.meet .retry).credit ≤ w.credit
    omega

/-- **Retries do not breed**: what is outstanding goes back to attempts that commands started. -/
theorem Steady.credit_run (steady : w.Steady) (plays : w.Plays moments) :
    (w.run moments).credit ≤ w.credit + w.summoned moments := by
  induction moments generalizing w with
  | nil => exact Nat.le_refl _
  | cons m rest ih =>
    have first := steady.credit_next plays.1
    have later := ih (steady.next plays.1) plays.2
    show ((w.next m).run rest).credit ≤ _
    rw [summoned]
    omega

/-! ## stretches -/

theorem now_run (w : Watch) (moments : List Moment) : w.now ≤ (w.run moments).now := by
  induction moments generalizing w with
  | nil => exact Nat.le_refl _
  | cons m rest ih =>
    refine Nat.le_trans ?_ (ih (w.next m))
    cases m with
    | passes duration => exact Nat.le_add_right _ _
    | _ => exact Nat.le_refl _

/-- a retry that is in line has gone off -/
def Punctual (w : Watch) : Prop := ∀ instant ∈ w.line, instant ≤ w.now

theorem Punctual.next (punctual : w.Punctual) (admits : w.Admits m) : (w.next m).Punctual := by
  cases m with
  | passes duration => exact fun t ht => Nat.le_trans (punctual t ht) (Nat.le_add_right _ _)
  | event e => exact punctual
  | rings instant =>
    intro t ht
    rcases List.mem_append.mp ht with old | new
    · exact punctual t old
    · rw [List.mem_singleton.mp new]
      exact admits.2
  | retry => exact fun t ht => punctual t (List.mem_of_mem_tail ht)

/-- how many are outstanding that go off before an instant -/
def ripe (w : Watch) (horizon : Nat) : Nat := w.outstanding.countP (· < horizon)

/-- a timer that is set no earlier than an interval before the horizon goes off beyond it -/
theorem Steady.ripe_meet (steady : w.Steady) (admits : w.scene.Admits e) {horizon : Nat}
    (beyond : horizon ≤ w.now + w.scene.link.config.retryInterval) :
    (w.meet e).ripe horizon = w.ripe horizon := by
  have late : (w.newTimers e).countP (· < horizon) = 0 := by
    rcases steady.newTimers_eq admits with none | one
    · rw [none]
      rfl
    · rw [one]
      simpa using beyond
  rw [ripe, (w.outstanding_meet e).countP_eq, List.countP_append, late]
  rfl

/-- before the horizon, what a retry starts was ripe, and nothing ripens -/
theorem Steady.ripe_next (steady : w.Steady) (punctual : w.Punctual) (admits : w.Admits m)
    {horizon : Nat} (early : w.now < horizon)
    (beyond : horizon ≤ w.now + w.scene.link.config.retryInterval) :
    (if m = .retry then (w.calls m).length else 0) + (w.next m).ripe horizon ≤ w.ripe horizon := by
  cases m with
  | passes duration => exact Nat.le_of_eq (Nat.zero_add _)
  | event e =>
    rw [if_neg nofun, Nat.zero_add]
    exact Nat.le_of_eq (steady.ripe_meet admits.2 beyond)
  | rings instant =>
    rw [if_neg nofun, Nat.zero_add]
    exact Nat.le_of_eq ((outstanding_rings admits.1).countP_eq _)
  | retry =>
    rw [if_pos rfl]
    have one := steady.calls_retry
    have met : (w.served.meet .retry).ripe horizon = w.served.ripe horizon :=
      Steady.ripe_meet (w := w.served) (e := .retry) steady trivial beyond
    obtain ⟨instant, inLine, used⟩ := outstanding_served admits
    have was : w.ripe horizon = w.served.ripe horizon + 1 := by
      rw [ripe, used.countP_eq, List.countP_cons_of_pos]
      · rfl
      · exact decide_eq_true (Nat.lt_of_le_of_lt (punctual instant inLine) early)
    show _ + (w.served.meet .retry).ripe horizon ≤ _
    omega

theorem config_next (steady : w.Steady) (m : Moment) :
    (w.next m).scene.link.config = w.scene.link.config := by
  cases m with
  | passes | rings => rfl
  | event e => exact steady.config_meet e
  | retry => exact Steady.config_meet (w := w.served) steady .retry

/-- up to the horizon retries start no more attempts than were ripe -/
theorem Steady.revivals_le_ripe (steady : w.Steady) (punctual : w.Punctual)
    (plays : w.Plays moments) {horizon : Nat} (early : (w.run moments).now < horizon)
    (beyond : horizon ≤ w.now + w.scene.link.config.retryInterval) :
    (w.revivals moments).length ≤ w.ripe horizon := by
  induction moments generalizing w with
  | nil => exact Nat.zero_le _
  | cons m rest ih =>
    have onward : w.now ≤ (w.next m).now := now_run w [m]
    have first := steady.ripe_next punctual plays.1
      (Nat.lt_of_le_of_lt (now_run w (m :: rest)) early) beyond
    have later := ih (steady.next plays.1) (punctual.next plays.1) plays.2 early
      (by rw [config_next steady m]; omega)
    have split : (w.revivals (m :: rest)).length =
        (if m = .retry then (w.calls m).length else 0) + ((w.next m).revivals rest).length := by
      rw [revivals, List.length_append]
      split <;> simp
    omega

/-- **In less than the retry interval only what was outstanding starts anything.** -/
theorem Steady.revivals_le (steady : w.Steady) (punctual : w.Punctual) (plays : w.Plays moments)
    (short : (w.run moments).now < w.now + w.scene.link.config.retryInterval) :
    (w.revivals moments).length ≤ w.outstanding.length :=
  Nat.le_trans (steady.revivals_le_ripe punctual plays short (Nat.le_refl _)) List.countP_le_length

theorem run_append (w : Watch) (a b : List Moment) : w.run (a ++ b) = (w.run a).run b :=
  List.foldl_append ..

theorem plays_append {a b : List Moment} : w.Plays (a ++ b) ↔ w.Plays a ∧ (w.run a).Plays b := by
  induction a generalizing w with
  | nil => exact ⟨fun h => ⟨trivial, h⟩, And.right⟩
  | cons m rest ih =>
    show _ ∧ (w.next m).Plays (rest ++ b) ↔
      (_ ∧ (w.next m).Plays rest) ∧ ((w.next m).run rest).Plays b
    rw [ih, and_assoc]

theorem Steady.run (steady : w.Steady) (punctual : w.Punctual) (plays : w.Plays moments) :
    (w.run moments).Steady ∧ (w.run moments).Punctual ∧
      (w.run moments).scene.link.config = w.scene.link.config := by
  induction moments generalizing w with
  | nil => exact ⟨steady, punctual, rfl⟩
  | cons m rest ih =>
    rw [← config_next steady m]
    exact ih (steady.next plays.1) (punctual.next plays.1) plays.2

/-! ## patience -/

/-- one retry at most is outstanding, and it is late enough after all that retries have started -/
structure Spaced (config : Config) (past : List Nat) (w : Watch) : Prop where
  steady : w.Steady
  same : w.scene.link.config = config
  punctual : w.Punctual
  single : w.credit ≤ 1
  due : ∀ instant ∈ w.outstanding, ∀ since ∈ past, since + config.retryInterval ≤ instant
  begun : ∀ since ∈ past, since ≤ w.now
  apart : past.Pairwise fun a b => a + config.retryInterval ≤ b

theorem spaced_start (role : Role) (config : Config) : Spaced config [] (start role config) where
  steady := steady_start role config
  same := rfl
  punctual := nofun
  single := Nat.zero_le 1
  due := nofun
  begun := nofun
  apart := .nil

/-- an attempt that a command starts finds nothing outstanding -/
theorem Steady.credit_of_patient (steady : w.Steady) (single : w.credit ≤ 1) (admits : w.Admits m)
    (patient : m = .retry ∨ w.calls m = [] ∨ w.outstanding = []) : (w.next m).credit ≤ 1 := by
  have next := steady.credit_next admits
  rcases patient with rfl | silent | free
  · exact Nat.le_trans next single
  · rw [silent] at next
    refine Nat.le_trans next (Nat.le_trans (Nat.le_of_eq ?_) single)
    split <;> rfl
  · cases m with
    | event e =>
      rw [if_neg nofun] at next
      rcases (Scene.pulse steady admits.2).calls_cases with none | ⟨phase, one⟩
      · have none : w.calls (.event e) = [] := none
        rw [none] at next
        exact Nat.le_trans next single
      · have one : w.calls (.event e) = [w.scene.link.epoch + 1] := one
        have rest : w.credit = 0 := by
          rw [credit, free, Link.stake_of_rest phase]
          rfl
        rw [one, rest] at next
        exact next
    | passes | rings => exact Nat.le_trans next single
    | retry => exact Nat.le_trans next single

theorem Spaced.event {past : List Nat} (h : w.Spaced config past) (admits : w.scene.Admits e) :
    ∀ instant ∈ (w.meet e).outstanding, ∀ since ∈ past,
      since + config.retryInterval ≤ instant := by
  intro instant member since hs
  rcases List.mem_append.mp ((w.outstanding_meet e).mem_iff.mp member) with old | new
  · exact h.due instant old since hs
  · rcases h.steady.newTimers_eq admits with none | one
    · rw [none] at new
      cases new
    · rw [one, h.same] at new
      rw [List.mem_singleton.mp new]
      exact Nat.add_le_add_right (h.begun since hs) _

/-- the retry that is met was the only one, so nothing is outstanding afterwards -/
theorem Spaced.retry {past : List Nat} (h : w.Spaced config past) (waits : w.line ≠ []) :
    (w.served.meet .retry).outstanding = [] ∧ ∀ since ∈ past,
      since + config.retryInterval ≤ w.now := by
  obtain ⟨instant, inLine, used⟩ := outstanding_served waits
  have single := h.single
  rw [credit, used.length_eq, List.length_cons] at single
  have none : w.served.outstanding = [] := List.length_eq_zero_iff.mp (by omega)
  have set : w.served.newTimers .retry = [] := Steady.newTimers_retry (w := w.served) h.steady
  constructor
  · have met := w.served.outstanding_meet .retry
    rw [none, set] at met
    exact met.eq_nil
  · intro since hs
    have due := h.due instant (used.mem_iff.mpr List.mem_cons_self) since hs
    exact Nat.le_trans due (h.punctual instant inLine)

theorem Spaced.next {past : List Nat} (h : w.Spaced config past) (admits : w.Admits m)
    (patient : m = .retry ∨ w.calls m = [] ∨ w.outstanding = []) :
    (w.next m).Spaced config
      (past ++ if m = .retry then (w.calls m).map fun _ => w.now else []) := by
  have steady := h.steady.next admits
  have config' := (config_next h.steady m).trans h.same
  have punctual := h.punctual.next admits
  have single := h.steady.credit_of_patient h.single admits patient
  have onward (due) : (w.next m).Spaced config past :=
    ⟨steady, config', punctual, single, due, fun since hs =>
      Nat.le_trans (h.begun since hs) (now_run w [m]), h.apart⟩
  cases m with
  | passes duration =>
    rw [if_neg nofun, List.append_nil]
    exact onward h.due
  | event e =>
    rw [if_neg nofun, List.append_nil]
    exact onward (h.event admits.2)
  | rings instant =>
    rw [if_neg nofun, List.append_nil]
    exact onward fun t ht => h.due t ((outstanding_rings admits.1).mem_iff.mp ht)
  | retry =>
    rw [if_pos rfl]
    obtain ⟨none, late⟩ := h.retry admits
    have now {since : Nat} (hs : since ∈ (w.calls .retry).map fun _ => w.now) : since = w.now := by
      obtain ⟨_, _, rfl⟩ := List.mem_map.mp hs
      rfl
    refine ⟨steady, config', punctual, single, ?_, ?_, ?_⟩
    · intro instant member
      have member : instant ∈ (w.served.meet .retry).outstanding := member
      rw [none] at member
      cases member
    · intro since hs
      rcases List.mem_append.mp hs with old | new
      · exact h.begun since old
      · exact Nat.le_of_eq (now new)
    · refine List.pairwise_append.mpr ⟨h.apart, ?_, fun a ha b hb => ?_⟩
      · have one := h.steady.calls_retry
        match calls : w.calls .retry with
        | [] => exact .nil
        | [_] => exact List.pairwise_singleton _ _
        | _ :: _ :: _ => rw [calls] at one; simp at one
      · rw [now hb]
        exact late a ha

theorem Spaced.run {past : List Nat} (h : w.Spaced config past) (plays : w.Plays moments)
    (patient : w.Patient moments) :
    (w.run moments).Spaced config (past ++ w.revivals moments) := by
  induction moments generalizing w past with
  | nil =>
    rw [revivals, List.append_nil]
    exact h
  | cons m rest ih =>
    rw [revivals, ← List.append_assoc]
    exact ih (h.next plays.1 patient.1) plays.2 patient.2

end

/-- **Retries do not multiply unless commands start attempts between them.**  In every course of
moments: at most as many retries are outstanding as commands have started attempts, and one less
while a connection is under way.  In less than the retry interval retries start no more attempts
than retries were outstanding when it began.  So if no command starts an attempt while a retry is
outstanding, there is one at most at any time, and two attempts that retries start are at least the
retry interval apart. -/
theorem retries_spaced (role : Role) (config : Config) (moments : List Moment)
    (plays : (start role config).Plays moments) :
    let w := (start role config).run moments
    ((w.timers ++ w.line).length + (if w.scene.link.phase.isActive then 1 else 0) ≤
      (start role config).summoned moments) ∧
    (∀ before stretch, moments = before ++ stretch →
      let v := (start role config).run before
      w.now < v.now + config.retryInterval →
        (v.revivals stretch).length ≤ (v.timers ++ v.line).length) ∧
    ((start role config).Patient moments → (w.timers ++ w.line).length ≤ 1 ∧
      ((start role config).revivals moments).Pairwise fun a b => a + config.retryInterval ≤ b) := by
  intro w
  have steady := steady_start role config
  refine ⟨?_, ?_, fun patient => ?_⟩
  · have credit := steady.credit_run plays
    have none : (start role config).credit = 0 := rfl
    rw [none, Nat.zero_add] at credit
    exact credit
  · rintro before stretch rfl v short
    obtain ⟨earlier, later⟩ := plays_append.mp plays
    obtain ⟨steady', punctual, same⟩ := steady.run nofun earlier
    refine steady'.revivals_le punctual later ?_
    rw [same, ← run_append]
    exact short
  · have spaced := (spaced_start role config).run plays patient
    exact ⟨Nat.le_trans (Nat.le_add_right _ _) spaced.single, spaced.apart⟩

/-- an attempt fails, the retry that it asks for starts another, and that one fails as well -/
theorem retries_spaced_of_two :
    let config := Config.default.withSentinel "main" [⟨"s1", 26379⟩]
    let ping := Command.ofRequest 1 (Request.ofVerb "PING") .utf8
    let moments : List Moment := [.event (.send ping),
      .event (.connectFailed 1 (.sentinel "failed to connect sentinels") true), .passes 300,
      .rings 300, .retry, .event (.connectFailed 3 (.sentinel "failed to connect sentinels") true),
      .passes 310, .rings 600, .retry]
    let w := (start .command config).run moments
    (start .command config).revivals moments = [300, 610] ∧ (w.timers ++ w.line).length ≤ 1 ∧
      ([300, 610] : List Nat).Pairwise fun a b => a + config.retryInterval ≤ b := by
  intro config ping moments w
  have plays : (start .command config).Plays moments := by decide +kernel
  have patient : (start .command config).Patient moments := by decide +kernel
  have revivals : (start .command config).revivals moments = [300, 610] := by decide +kernel
  have spaced := (retries_spaced .command config moments plays).2.2 patient
  rw [revivals] at spaced
  exact ⟨revivals, spaced⟩

/-- a command starts an attempt while a retry is outstanding, and it fails as the first one did:
two timers are set, and when they go off they start two attempts a tenth of a second apart -/
theorem retries_crowd :
    let config := Config.default.withSentinel "main" [⟨"s1", 26379⟩]
    let ping (t : Ticket) := Command.ofRequest t (Request.ofVerb "PING") .utf8
    let moments : List Moment := [.event (.send (ping 1)),
      .event (.connectFailed 1 (.sentinel "failed to connect sentinels") true), .passes 100,
      .event (.send (ping 2)),
      .event (.connectFailed 3 (.sentinel "failed to connect sentinels") true), .passes 200,
      .rings 300, .retry,
      .event (.connectFailed 5 (.sentinel "failed to connect sentinels") true), .passes 100,
      .rings 400, .retry]
    (start .command config).Plays moments ∧
      ((start .command config).run (moments.take 5)).timers = [300, 400] ∧
      (start .command config).revivals moments = [300, 400] ∧ config.retryInterval = 300 := by
  intro config ping moments
  exact ⟨by decide +kernel, by decide +kernel, by decide +kernel, rfl⟩

end Watch
end RespLink
