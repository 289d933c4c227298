import RespLink.Proofs.Partings

/-!
# Retries

A retry is asked for by a failure, and it comes once.  It knows no epoch: it starts a connect
attempt on any link at rest, also when the link was connected and lost its connection since.

* `awaited`, `retriesAfter`   the retries that are still to come;
* `Paced`    no retry comes that was not asked for;
* `Idles`    a turn that starts no connect attempt and asks for none;
* `Lull`     a link that is not connecting; it stays so until a command is sent or a retry comes;
* `Over`     a connection ends, or a disconnect is done;
* `no_dial_before_retry`   what is dialled after that.
-/

namespace RespLink

def Effect.isRetry : Effect → Bool
  | retryAfter _ => true
  | _ => false

namespace Link

/-- the retries that are to come after the turn of an event, if `n` were to come before -/
def awaited (n : Nat) (e : Event) (t : Turn) : Nat :=
  (if e = .retry then n - 1 else n) + t.effects.countP Effect.isRetry

/-- and after the events of a run -/
def retriesAfter : Nat → Link → List Event → Nat
  | n, _, [] => n
  | n, l, e :: rest => retriesAfter (awaited n e (l.step e)) (l.step e).link rest

def Paced : Nat → Link → List Event → Prop
  | _, _, [] => True
  | n, l, e :: rest => (e = .retry → 0 < n) ∧ Paced (awaited n e (l.step e)) (l.step e).link rest

def decidePaced : (n : Nat) → (l : Link) → (events : List Event) → Decidable (Paced n l events)
  | _, _, [] => .isTrue trivial
  | n, l, e :: rest =>
    have := decidePaced (awaited n e (l.step e)) (l.step e).link rest
    inferInstanceAs (Decidable ((e = .retry → 0 < n) ∧
      Paced (awaited n e (l.step e)) (l.step e).link rest))

instance (n : Nat) (l : Link) (events : List Event) : Decidable (Paced n l events) :=
  decidePaced n l events

theorem Paced.right {n : Nat} {l : Link} {a b : List Event} (h : Paced n l (a ++ b)) :
    Paced (retriesAfter n l a) (run a l).link b := by
  induction a generalizing n l with
  | nil => exact h
  | cons e rest ih => exact ih h.2

theorem retriesAfter_append (n : Nat) (l : Link) (a b : List Event) :
    retriesAfter n l (a ++ b) = retriesAfter (retriesAfter n l a) (run a l).link b := by
  induction a generalizing n l with
  | nil => rfl
  | cons e rest ih => exact ih _ _

/-- quiet turns ask for no retry -/
theorem awaited_of_quiet {e : Event} {t : Turn} (other : e ≠ .retry)
    (quiet : ∀ x ∈ t.effects, x.isAsking = false) (n : Nat) : awaited n e t = n := by
  have none : t.effects.countP Effect.isRetry = 0 := by
    refine List.countP_eq_zero.mpr fun x hx asks => ?_
    have calm := quiet x hx
    cases x <;> cases asks
    cases calm
  rw [awaited, if_neg other, none]
  rfl

/-- a turn that starts no connect attempt and asks for none -/
structure Idles (l : Link) (t : Turn) : Prop where
  phase : t.link.phase ≠ .connecting
  attempts : t.link.attempts = l.attempts
  quiet : ∀ x ∈ t.effects, x.isAsking = false

theorem idles_of {l : Link} (phase : l.phase ≠ .connecting) : Idles l (.of l) :=
  ⟨phase, rfl, fun _ hx => nomatch hx⟩

theorem idles_stoppedStep {l : Link} (phase : l.phase ≠ .connecting) (e : Event) :
    Idles l (l.stoppedStep e) := by
  have one {x : Effect} (quiet : x.isAsking = false) : Idles l ⟨l, [x]⟩ :=
    ⟨phase, rfl, quiet_one quiet⟩
  cases e with
  | send c => exact one rfl
  | disconnect t => exact one rfl
  | attached epoch socket sentinel? => exact one rfl
  | _ => exact idles_of phase

theorem idles_shutdown (l : Link) : Idles l l.shutdown := by
  refine ⟨by rw [shutdown_link]; exact nofun, rfl, fun x hx => ?_⟩
  rw [shutdown_effects] at hx
  rcases List.mem_append.mp hx with failed | released
  · exact quiet_failures _ _ x failed
  · obtain ⟨s, _, rfl⟩ := List.mem_map.mp released
    rfl

end Link

namespace Scene

section
variable {s : Scene} {e : Event}

/-- the end of a connection asks for a retry only if the cause says so -/
theorem Sound.quiet_of_ended (sound : s.Sound) (running : s.link.stopped = false)
    (active : s.link.phase.isActive = true) (admits : s.Admits e) {before : Turn} {d : End}
    (told : s.link.progress e = .upTo before d)
    (unmarked : ∀ why, d = .lost why → why.retries = false) :
    ∀ x ∈ (s.link.step e).effects, x.isAsking = false := by
  have tells := sound.tells running active admits
  have lasts := tells.lasts
  have quiet := tells.quiet
  rw [told, Progress.turn_upTo] at lasts quiet
  rw [← tells.whole, told]
  intro x hx
  rcases List.mem_append.mp hx with early | late
  · exact quiet x early
  · by_contra asks
    obtain ⟨why, is, retries, _⟩ :=
      Link.asking_of_letGo (lasts.active active) late (eq_true_of_ne_false asks)
    rw [unmarked why is] at retries
    cases retries

/-- a connected link loses the connection without a retry in mind, or keeps it -/
theorem Sound.idles_of_connected (sound : s.Sound) (running : s.link.stopped = false)
    (connected : s.link.phase = .connected) (admits : s.Admits e) :
    s.link.Idles (s.link.step e) := by
  have active : s.link.phase.isActive = true := by rw [connected]; rfl
  have tells := sound.tells running active admits
  have lasts := tells.lasts
  cases told : s.link.progress e with
  | through u =>
    have quiet := tells.quiet
    rw [told] at lasts quiet
    rw [← tells.whole, told]
    refine ⟨?_, lasts.attempts, quiet⟩
    have still : u.link.phase = .connected := lasts.connected connected
    show u.link.phase ≠ .connecting
    rw [still]
    decide
  | upTo u d =>
    -- a retry is in mind only before the link is connected
    have unmarked (why : Cause) (is : d = .lost why) : why.retries = false := by
      by_contra retries
      have was := tells.retries u why (is ▸ told) (eq_true_of_ne_false retries)
      rw [connected] at was
      cases was
    rw [told, Progress.turn_upTo] at lasts
    refine ⟨?_, ?_, sound.quiet_of_ended running active admits told unmarked⟩
    · rw [(sound.rests_of_ended running active admits told).phase]
      decide
    · rw [← tells.whole, told]
      exact (Link.letGo_attempts (lasts.active active) d).trans lasts.attempts

theorem Sound.idles_of_rest (sound : s.Sound) (running : s.link.stopped = false)
    (phase : s.link.phase = .disconnected) (admits : s.Admits e) (unsent : ∀ c, e ≠ .send c)
    (unasked : e ≠ .retry) : s.link.Idles (s.link.step e) := by
  have rouses := sound.rouses running (by rw [phase]; rfl) admits
  generalize s.link.step e = t at rouses
  cases rouses with
  | stays quiet => exact ⟨by rw [phase]; decide, rfl, quiet⟩
  | calls _ _ cause =>
    rcases cause with asked | ⟨c, sent⟩
    · exact absurd asked unasked
    · exact absurd sent (unsent c)
  | stops => exact Link.idles_shutdown s.link

/-- a scene whose link is not connecting -/
structure Lull (s : Scene) : Prop where
  phase : s.link.phase ≠ .connecting
  sound : s.link.stopped = false → s.Sound

theorem Lull.idles (lull : s.Lull) (admits : s.Admits e) (unsent : ∀ c, e ≠ .send c)
    (unasked : e ≠ .retry) : s.link.Idles (s.link.step e) := by
  cases running : s.link.stopped with
  | true =>
    rw [Link.step_of_stopped running]
    exact Link.idles_stoppedStep lull.phase e
  | false =>
    have sound := lull.sound running
    rcases sound.settled.phase_cases with phase | phase | phase
    · exact sound.idles_of_rest running phase admits unsent unasked
    · exact absurd phase lull.phase
    · exact sound.idles_of_connected running phase admits

theorem Lull.next (lull : s.Lull) (admits : s.Admits e) (unsent : ∀ c, e ≠ .send c)
    (unasked : e ≠ .retry) : (s.next e).Lull where
  phase := (lull.idles admits unsent unasked).phase
  sound running := by
    obtain ⟨before, lasting⟩ := @running_of_next s e [] running
    exact (lull.sound before).next before admits lasting

/-- **Nothing is dialled in a lull** until a command is sent or a retry comes. -/
theorem Lull.run {events : List Event} (lull : s.Lull) (plays : s.Plays events)
    (unsent : ∀ c, .send c ∉ events) (unasked : .retry ∉ events) :
    (Link.run events s.link).link.attempts = s.link.attempts ∧
      (Link.run events s.link).effects.filterMap Effect.call? = [] := by
  induction events generalizing s with
  | nil => exact ⟨rfl, rfl⟩
  | cons e rest ih =>
    have other : ∀ c, e ≠ .send c := fun c is => unsent c (is ▸ List.mem_cons_self)
    have own : e ≠ .retry := fun is => unasked (is ▸ List.mem_cons_self)
    have idles := lull.idles plays.1 other own
    obtain ⟨attempts, dials⟩ := ih (lull.next plays.1 other own) plays.2
      (fun c hc => unsent c (List.mem_cons_of_mem _ hc))
      (fun hc => unasked (List.mem_cons_of_mem _ hc))
    have silent : (s.link.step e).effects.filterMap Effect.call? = [] := by
      refine List.filterMap_eq_nil_iff.mpr fun x hx => ?_
      have quiet := idles.quiet x hx
      cases x <;> first | rfl | cases quiet
    refine ⟨attempts.trans idles.attempts, ?_⟩
    rw [Link.run, Turn.andThen_effects, List.filterMap_append, silent]
    exact dials

/-- no retry comes in a lull if none is to come -/
theorem Lull.unasked {events : List Event} (lull : s.Lull) (plays : s.Plays events)
    (unsent : ∀ c, .send c ∉ events) (paced : Link.Paced 0 s.link events) : .retry ∉ events := by
  induction events generalizing s with
  | nil => exact nofun
  | cons e rest ih =>
    have other : ∀ c, e ≠ .send c := fun c is => unsent c (is ▸ List.mem_cons_self)
    have own : e ≠ .retry := fun is => Nat.lt_irrefl 0 (paced.1 is)
    have later := paced.2
    rw [Link.awaited_of_quiet own (lull.idles plays.1 other own).quiet] at later
    refine List.not_mem_cons_of_ne_of_not_mem (Ne.symm own) ?_
    exact ih (lull.next plays.1 other own) plays.2
      (fun c hc => unsent c (List.mem_cons_of_mem _ hc)) later

end

/-- with the last of these events a connection ends, or a disconnect is done -/
inductive Over (role : Role) (config : Config) (events : List Event) (e : Event) : Prop
  | ended (before d) (active : ((start role config).run events).link.phase.isActive = true)
    (told : ((start role config).run events).link.progress e = .upTo before d)
  | done (t x) (asked : .disconnect t ∈ events ++ [e])
    (distinct : (((events ++ [e]).filterMap (Event.command? config.encoding)).map
      Command.ticket).Nodup)
    (effect : x ∈ (((start role config).run events).link.step e).effects)
    (gone : x.ended? = some t)

section
variable {role : Role} {config : Config} {events : List Event} {e : Event}

theorem Over.phase (done : Over role config events e) (plays : (start role config).Plays events)
    (admits : ((start role config).run events).Admits e) :
    (((start role config).run events).link.step e).link.phase ≠ .connecting := by
  cases done with
  | ended before d active told =>
    obtain ⟨running, sound⟩ := sound_of_active role config plays active
    rw [(sound.rests_of_ended running active admits told).phase]
    decide
  | done t x asked distinct effect gone =>
    rcases phase_of_done plays admits asked distinct effect gone with rest | ⟨_, _, still⟩
    · rw [rest]; decide
    · rw [still]; decide

theorem Over.lull (done : Over role config events e)
    (plays : (start role config).Plays (events ++ [e])) :
    ((start role config).run (events ++ [e])).Lull where
  phase := by
    obtain ⟨before, admits, _⟩ := plays_append.mp plays
    rw [run_append]
    exact done.phase before admits
  sound running := (sound_start role config).run plays running

end

/-- **Nothing is dialled without a cause, and a retry that is still to come is one.**  When a
connection has ended, or a disconnect is done, then until a command is sent no connect attempt
starts but by a retry, and none comes if all that were asked for have come.  A connection that ends
with no retry in mind leaves those to come that were asked for before. -/
theorem no_dial_before_retry (role : Role) (config : Config) (events : List Event) (e : Event)
    (later : List Event) (plays : (start role config).Plays ((events ++ [e]) ++ later))
    (paced : Link.Paced 0 (.start role config) ((events ++ [e]) ++ later))
    (done : Over role config events e) (unsent : ∀ c, .send c ∉ later) :
    let s := (start role config).run events
    let l := (s.link.step e).link
    let t := Link.run later l
    (.retry ∉ later ∨ Link.retriesAfter 0 (.start role config) (events ++ [e]) = 0 →
      t.link.attempts = l.attempts ∧ t.effects.filterMap Effect.call? = []) ∧
    ∀ before d, s.link.phase.isActive = true → s.link.progress e = .upTo before d →
      (∀ why, d = .lost why → why.retries = false) →
      Link.retriesAfter 0 (.start role config) (events ++ [e]) =
        Link.retriesAfter 0 (.start role config) events := by
  intro s l t
  obtain ⟨before, after⟩ := plays_append.mp plays
  obtain ⟨first, admits, _⟩ := plays_append.mp before
  have link : ((start role config).run (events ++ [e])).link = l := by
    rw [run_append]
    rfl
  have same : s.link = (Link.run events (.start role config)).link :=
    (run_eq (start role config) events).1
  constructor
  · intro unasked
    have lull := done.lull before
    have none : .retry ∉ later := by
      rcases unasked with none | due
      · exact none
      · have rest := paced.right
        have whole : ((start role config).run (events ++ [e])).link
            = (Link.run (events ++ [e]) (.start role config)).link :=
          (run_eq (start role config) (events ++ [e])).1
        rw [due, ← whole] at rest
        exact lull.unasked after unsent rest
    have quiet := lull.run after unsent none
    rw [link] at quiet
    exact quiet
  · intro _ d active told unmarked
    obtain ⟨running, sound⟩ := sound_of_active role config first active
    have other : e ≠ .retry := by
      rintro rfl
      cases told
    rw [Link.retriesAfter_append, ← same]
    exact Link.awaited_of_quiet other (sound.quiet_of_ended running active admits told unmarked) _

/-- the peer closes the socket; then a disconnect finds nothing to end -/
theorem no_dial_before_retry_on_close :
    let ping := Command.ofRequest 1 (Request.ofVerb "PING") .utf8
    let l := (Link.run [.send ping, .attached 1 (.fresh 7) none, .closed 1]
      (.start .command .default)).link
    let t := Link.run [.disconnect 2] l
    t.link.attempts = l.attempts ∧ t.effects.filterMap Effect.call? = [] := by
  intro ping
  let events : List Event := [.send ping, .attached 1 (.fresh 7) none]
  have plays : (start .command .default).Plays ((events ++ [.closed 1]) ++ [.disconnect 2]) :=
    ⟨Command.fresh_ofRequest _ _ _, List.mem_singleton.mpr rfl, ⟨⟨1, 7, none⟩, by decide, rfl⟩,
      trivial, trivial⟩
  have paced : Link.Paced 0 (.start .command .default)
      ((events ++ [.closed 1]) ++ [.disconnect 2]) := by
    decide +kernel
  have done : Over .command .default events (.closed 1) :=
    .ended (.of ((start .command .default).run events).link) (.lost .closed) (by decide)
      (Link.progress_closed (by decide))
  exact (no_dial_before_retry .command .default events (.closed 1) [.disconnect 2] plays paced done
    (by simp)).1 (.inr (by decide +kernel))

/-- the attempt of one command fails, the attempt of the next one gets a socket, and the peer closes
it: the retry that the first failure asked for dials, though no command is there -/
theorem dial_after_close :
    let config := Config.default.withSentinel "main" [⟨"s1", 26379⟩]
    let ping (t : Ticket) := Command.ofRequest t (Request.ofVerb "PING") .utf8
    let events : List Event := [.send (ping 1),
      .connectFailed 1 (.sentinel "failed to connect sentinels") true, .send (ping 2),
      .attached 3 (.fresh 7) (some 0)]
    let l := (Link.run (events ++ [.closed 3]) (.start .command config)).link
    let t := Link.run [.retry] l
    (start .command config).Plays ((events ++ [.closed 3]) ++ [.retry]) ∧
      Link.Paced 0 (.start .command config) ((events ++ [.closed 3]) ++ [.retry]) ∧
      ((start .command config).run events).link.progress (.closed 3) =
        .upTo (.of ((start .command config).run events).link) (.lost .closed) ∧
      l.pending = [] ∧ l.attempts = 2 ∧ t.link.attempts = 3 ∧
      t.effects.filterMap Effect.call? = [5] := by
  intro config ping events l t
  have plays : (start .command config).Plays ((events ++ [.closed 3]) ++ [.retry]) :=
    ⟨Command.fresh_ofRequest _ _ _, List.mem_singleton.mpr rfl, Command.fresh_ofRequest _ _ _,
      List.mem_singleton.mpr rfl, ⟨⟨3, 7, some 0⟩, by decide, rfl⟩, trivial, trivial⟩
  exact ⟨plays, by decide +kernel, Link.progress_closed (by decide), by decide, by decide,
    by decide, by decide⟩

end Scene
end RespLink
