import RespLink.Proofs.Failures
import Mathlib.Data.List.Induction

/-!
# Searches

A connect attempt through Sentinels is a search: one after another they are asked for the master,
the address that one reports is dialled, and the first stream ends the search.

* `Attempt.latest`   the attempt after some signals, with what it asked for at the last of them;
* `Attempt.Asks`     what it asks for after some signals, in the end;
* `Attempt.Replies`  a Sentinel was asked at one time, and had reported an address at another;
* `Attempt.Search`   where a search stands, with what led there; it is kept by every signal;
* `led_of_attached`  a search that gets a stream owes it to the Sentinel whose index it reports.
-/

namespace RespLink

/-- the inquiry after these signals -/
def Inquiry.after (master : String) (signals : List Signal) : Inquiry :=
  signals.foldl (fun q signal => (q.step signal).1) (dialling master)

theorem Inquiry.after_concat (master : String) (signals : List Signal) (x : Signal) :
    after master (signals ++ [x]) = ((after master signals).step x).1 := List.foldl_concat ..

namespace Attempt

def outcome? : Attempt → Option Outcome
  | ended outcome => some outcome
  | _ => none

theorem outcome?_eq_some_iff {a : Attempt} {outcome : Outcome} :
    a.outcome? = some outcome ↔ a = .ended outcome := by
  cases a <;> simp [outcome?]

/-- the attempt after these signals, and its actions at the last one -/
def latest (config : Config) (sentinels? : Option Sentinels) (signals : List Signal) :
    Attempt × List Action :=
  signals.foldl (fun t signal => t.1.step config signal) (start config sentinels?)

theorem latest_fst (config : Config) (sentinels? : Option Sentinels) (signals : List Signal) :
    (latest config sentinels? signals).1 = after config sentinels? signals :=
  (List.foldl_hom Prod.fst fun _ _ => rfl).symm

theorem latest_concat (config : Config) (sentinels? : Option Sentinels) (signals : List Signal)
    (x : Signal) :
    latest config sentinels? (signals ++ [x]) =
      (latest config sentinels? signals).1.step config x := by
  rw [latest, List.foldl_append]
  rfl

section
variable {config : Config} {list : Sentinels} {signals : List Signal}

/-- after these signals the attempt asks for these things, in the end -/
def Asks (config : Config) (list : Sentinels) (signals : List Signal) (actions : List Action) :
    Prop :=
  ∃ before, (latest config (some list) signals).2 = before ++ actions

/-- the Sentinel is dialled after `earlier`, and what comes in next is its answer -/
structure Replies (config : Config) (list : Sentinels) (earlier answer : List Signal)
    (sentinel peer : Endpoint) : Prop where
  asked : Asks config list earlier [.limit config.sentinelTimeout, .dial sentinel]
  address : Inquiry.after config.master answer = .done (.ok peer)
  called : Asks config list (earlier ++ answer) [.limit config.connectTimeout, .dial peer]

/-- where a search stands -/
inductive Search (config : Config) (list : Sentinels) (signals : List Signal) : Attempt → Prop
  | asking {i sentinel} (earlier answer) (here : list[i]? = some sentinel)
    (split : signals = earlier ++ answer)
    (asked : Asks config list earlier [.limit config.sentinelTimeout, .dial sentinel]) :
    Search config list signals
      (.through (.asking i (Inquiry.after config.master answer) (list.drop (i + 1))))
  | calling {i sentinel peer} (earlier answer silent) (here : list[i]? = some sentinel)
    (split : signals = earlier ++ answer ++ silent)
    (replies : Replies config list earlier answer sentinel peer)
    (pending : ∀ s, .connected s ∉ silent) :
    Search config list signals (.through (.calling i (list.drop (i + 1))))
  | reached {i socket sentinel peer} (earlier answer silent later)
    (here : list[i]? = some sentinel)
    (split : signals = earlier ++ answer ++ silent ++ .connected socket :: later)
    (replies : Replies config list earlier answer sentinel peer)
    (pending : ∀ s, .connected s ∉ silent) :
    Search config list signals (.ended (.attached socket (some i)))
  | exhausted : Search config list signals
      (.ended (.failed (.sentinel "failed to connect sentinels") true))

/-- the Sentinel of the next index is asked, or there is none -/
theorem search_ask (actions : List Action) (i : Nat)
    (turn : (latest config (some list) signals).2 =
      actions ++ (Walk.ask config i (list.drop i)).2) :
    Search config list signals (ofWalk (Walk.ask config i (list.drop i)).1) := by
  cases here : list[i]? with
  | none =>
    have done : list.drop i = [] := List.drop_eq_nil_of_le (List.getElem?_eq_none_iff.mp here)
    rw [done]
    exact .exhausted
  | some sentinel =>
    obtain ⟨inside, value⟩ := List.getElem?_eq_some_iff.mp here
    have split : list.drop i = sentinel :: list.drop (i + 1) := by
      rw [← value]
      exact List.drop_eq_getElem_cons inside
    rw [split] at turn ⊢
    exact .asking signals [] here (List.append_nil _).symm ⟨actions, turn⟩

/-- a signal while a Sentinel is asked: the answer is complete now, or it goes on -/
theorem search_of_asking {i : Nat} {sentinel : Endpoint} {earlier answer : List Signal} {x : Signal}
    (here : list[i]? = some sentinel) (split : signals = earlier ++ answer)
    (asked : Asks config list earlier [.limit config.sentinelTimeout, .dial sentinel])
    (turn : latest config (some list) (signals ++ [x]) = step config
      (.through (.asking i (Inquiry.after config.master answer) (list.drop (i + 1)))) x) :
    Search config list (signals ++ [x]) (latest config (some list) (signals ++ [x])).1 := by
  have more : signals ++ [x] = earlier ++ (answer ++ [x]) := by rw [split, List.append_assoc]
  have folded := Inquiry.after_concat config.master answer x
  -- the turn, taken apart by what the inquiry has come to
  have apart : latest config (some list) (signals ++ [x]) =
      (ofWalk (Walk.proceed config i (list.drop (i + 1)) (Inquiry.after config.master
          (answer ++ [x]))).1,
        ((Inquiry.after config.master answer).step x).2 ++
          (Walk.proceed config i (list.drop (i + 1)) (Inquiry.after config.master
            (answer ++ [x]))).2) := by
    rw [turn, folded]
    rfl
  have goes {q : Inquiry} (is : Inquiry.after config.master (answer ++ [x]) = q) :
      Search config list (signals ++ [x]) (.through (.asking i q (list.drop (i + 1)))) := by
    rw [← is]
    exact .asking earlier (answer ++ [x]) here more asked
  cases result : Inquiry.after config.master (answer ++ [x]) with
  | done result' =>
    rw [result] at apart
    rw [apart]
    cases result' with
    | ok peer =>
      have replies : Replies config list earlier (answer ++ [x]) sentinel peer :=
        ⟨asked, result, _, by rw [← more, apart]; rfl⟩
      exact .calling earlier (answer ++ [x]) [] here (by rw [List.append_nil, more]) replies nofun
    | error err => exact search_ask _ (i + 1) (congrArg Prod.snd apart)
  | dialling master =>
    rw [result] at apart
    rw [apart]
    exact goes result
  | reading socket parser =>
    rw [result] at apart
    rw [apart]
    exact goes result

/-- a signal while an address is dialled: only three of them matter -/
theorem search_of_calling {i : Nat} {sentinel peer : Endpoint} {earlier answer silent : List Signal}
    {x : Signal} (here : list[i]? = some sentinel)
    (split : signals = earlier ++ answer ++ silent)
    (replies : Replies config list earlier answer sentinel peer)
    (pending : ∀ s, .connected s ∉ silent)
    (turn : latest config (some list) (signals ++ [x]) =
      step config (.through (.calling i (list.drop (i + 1)))) x) :
    Search config list (signals ++ [x]) (latest config (some list) (signals ++ [x])).1 := by
  have waits (quiet : ∀ s, x ≠ .connected s) :
      Search config list (signals ++ [x]) (.through (.calling i (list.drop (i + 1)))) := by
    refine .calling earlier answer (silent ++ [x]) here (by simp [split]) replies fun s hs => ?_
    rcases List.mem_append.mp hs with old | new
    · exact pending s old
    · exact quiet s (List.mem_singleton.mp new).symm
  rw [turn]
  cases x with
  | connected socket =>
    exact .reached earlier answer silent [] here (by simp [split]) replies pending
  | refused cause => exact search_ask [] (i + 1) (congrArg Prod.snd turn)
  | elapsed => exact search_ask [] (i + 1) (congrArg Prod.snd turn)
  | heard chunk => exact waits nofun
  | ended => exact waits nofun
  | broken cause => exact waits nofun

theorem Search.next (h : Search config list signals (latest config (some list) signals).1)
    (x : Signal) :
    Search config list (signals ++ [x]) (latest config (some list) (signals ++ [x])).1 := by
  have turn := latest_concat config (some list) signals x
  generalize (latest config (some list) signals).1 = a at h turn
  cases h with
  | asking earlier answer here split asked => exact search_of_asking here split asked turn
  | calling earlier answer silent here split replies pending =>
    exact search_of_calling here split replies pending turn
  | reached earlier answer silent later here split replies pending =>
    rw [turn]
    exact .reached earlier answer silent (later ++ [x]) here (by simp [split]) replies pending
  | exhausted =>
    rw [turn]
    exact .exhausted

theorem search_after (config : Config) (list : Sentinels) (signals : List Signal) :
    Search config list signals (after config (some list) signals) := by
  rw [← latest_fst]
  induction signals using List.reverseRecOn with
  | nil => exact search_ask [] 0 rfl
  | append_singleton signals x ih => exact ih.next x

/-- the search gets a stream, and owes it to one Sentinel: its address was asked for, then the
stream came from the peer that it reported -/
structure Led (config : Config) (list : Sentinels) (signals : List Signal) (socket : Socket)
    (i : Nat) (sentinel peer : Endpoint) : Prop where
  here : list[i]? = some sentinel
  came : ∃ earlier answer silent later,
    signals = earlier ++ answer ++ silent ++ .connected socket :: later ∧
      Replies config list earlier answer sentinel peer ∧ ∀ s, .connected s ∉ silent

theorem led_of_attached {socket : Socket} {sentinel? : Option Nat}
    (ended : after config (some list) signals = .ended (.attached socket sentinel?)) :
    ∃ i sentinel peer, sentinel? = some i ∧ Led config list signals socket i sentinel peer := by
  have search := search_after config list signals
  rw [ended] at search
  cases search with
  | reached earlier answer silent later here split replies pending =>
    exact ⟨_, _, _, rfl, here, earlier, answer, silent, later, split, replies, pending⟩

/-- a search fails only when all Sentinels were asked in vain -/
theorem failed_of_after {err : Error} {retry : Bool}
    (ended : after config (some list) signals = .ended (.failed err retry)) :
    err = .sentinel "failed to connect sentinels" ∧ retry = true := by
  have search := search_after config list signals
  rw [ended] at search
  cases search
  exact ⟨rfl, rfl⟩

/-- a search asks the first Sentinel first -/
theorem start_some (config : Config) (sentinel : Endpoint) (rest : Sentinels) :
    (start config (some (sentinel :: rest))).2 =
      [.limit config.sentinelTimeout, .dial sentinel] := rfl

end
end Attempt
end RespLink
