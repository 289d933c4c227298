import RespLink.Proofs.Futures
import RespLink.PubSub.Bus
import Mathlib.Data.List.Induction

/-!
# What listeners hear

A message published at an address is for every listener there that still accepts messages, and for
nobody else.

* `Bus.Act`        what is done with a bus and its listeners; `Act.since?` is who came as the `n`-th
                   listener, and what was done since; `Act.due` is what that listener is to hear;
* `Bus.Posted`     the numbers under an address are, the silent ones left out, those of all who
                   listen there;
* `getElem?_publish`   what a message does to a listener, in view of that listener alone;
* `Listener.Follows`   a listener has heard what it was to hear; kept by every act on it;
* `Broadcast`      a bus and what was received from it; `Broadcast.Follows` is kept by every act;
* `heard_of_run`   what follows for every course of acts.
-/

namespace RespLink
namespace Bus

/-! ## acts -/

inductive Act where
  | listen (address : String)
  | publish (address : String) (a : Announcement)
  | close (n : Nat)
  | drop (n : Nat)
  | receive (n : Nat)
deriving DecidableEq

namespace Act

def isListen : Act → Bool
  | listen _ => true
  | _ => false

/-- what is published at an address -/
def published? (address : String) : Act → Option Announcement
  | publish there a => if there = address then some a else none
  | _ => none

/-- the address of the `n`-th listener, and what was done since it came -/
def since? : Nat → List Act → Option (String × List Act)
  | _, [] => none
  | 0, listen address :: rest => some (address, rest)
  | n + 1, listen _ :: rest => since? n rest
  | n, _ :: rest => since? n rest

/-- what a listener is to hear: all that is published at its address until it is closed -/
def due (n : Nat) (address : String) (since : List Act) : List Announcement :=
  (since.takeWhile (· ≠ close n)).filterMap (published? address)

/-- the `n`-th listener listens at this address, and was neither closed nor dropped -/
def attends (address : String) (acts : List Act) (n : Nat) : Bool :=
  (since? n acts).any fun (there, since) => there = address ∧ close n ∉ since ∧ drop n ∉ since

section
variable {n : Nat} {address : String} {acts since : List Act}

theorem since?_of_other {x : Act} (other : x.isListen = false) (n : Nat) (acts : List Act) :
    since? n (x :: acts) = since? n acts := by
  cases x <;> first | (cases n <;> rfl) | cases other

/-- who came as the `n`-th came, whatever is done later -/
theorem since?_append (found : since? n acts = some (address, since)) (more : List Act) :
    since? n (acts ++ more) = some (address, since ++ more) := by
  induction acts generalizing n with
  | nil => cases found
  | cons x acts ih =>
    cases listens : x.isListen with
    | false =>
      rw [List.cons_append, since?_of_other listens]
      rw [since?_of_other listens] at found
      exact ih found
    | true =>
      cases x <;> cases listens
      cases n with
      | zero => cases found; rfl
      | succ n => exact ih found

theorem since?_eq_none_iff : since? n acts = none ↔ acts.countP isListen ≤ n := by
  induction acts generalizing n with
  | nil => exact ⟨fun _ => Nat.zero_le n, fun _ => rfl⟩
  | cons x acts ih =>
    cases listens : x.isListen with
    | false =>
      rw [since?_of_other listens, List.countP_cons_of_neg (by rw [listens]; decide)]
      exact ih
    | true =>
      rw [List.countP_cons_of_pos listens]
      cases x <;> cases listens
      cases n with
      | zero => exact ⟨nofun, nofun⟩
      | succ n => exact ih.trans Nat.succ_le_succ_iff.symm

/-- the last to come has seen nothing done yet -/
theorem since?_listen (address : String) (acts : List Act) :
    since? (acts.countP isListen) (acts ++ [listen address]) = some (address, []) := by
  induction acts with
  | nil => rfl
  | cons x acts ih =>
    cases listens : x.isListen with
    | false =>
      rw [List.countP_cons_of_neg (by rw [listens]; decide), List.cons_append,
        since?_of_other listens]
      exact ih
    | true =>
      rw [List.countP_cons_of_pos listens]
      cases x <;> cases listens
      exact ih

/-- nothing is for a listener once it is closed -/
theorem due_close (n : Nat) (address : String) (since : List Act) :
    due n address (close n :: since) = [] := by
  rw [due, List.takeWhile_cons_of_neg (by simp)]
  rfl

theorem due_cons {x : Act} (other : x ≠ close n) (address : String) (since : List Act) :
    due n address (x :: since) = (x.published? address).toList ++ due n address since := by
  rw [due, List.takeWhile_cons_of_pos (by simpa using other), List.filterMap_cons]
  cases x.published? address <;> rfl

theorem due_concat (n : Nat) (address : String) (since : List Act) (x : Act) :
    due n address (since ++ [x]) =
      due n address since ++ if close n ∈ since then [] else (x.published? address).toList := by
  induction since with
  | nil =>
    by_cases closes : x = close n
    · rw [closes]
      exact due_close n address []
    · exact (due_cons closes address []).trans (List.append_nil _)
  | cons y since ih =>
    by_cases closes : y = close n
    · rw [closes, List.cons_append, due_close, due_close, if_pos List.mem_cons_self]
      rfl
    · have later : close n ∈ y :: since ↔ close n ∈ since := by
        simp [Ne.symm closes]
      rw [List.cons_append, due_cons closes, due_cons closes, ih, List.append_assoc]
      simp only [later]

end
end Act

/-! ## the numbers under an address -/

/-- where each listener listens, or has listened -/
def places (b : Bus) : List String := b.listeners.map Listener.address

def hearsAt (b : Bus) (address : String) (n : Nat) : Bool :=
  b.places[n]? = some address && b.hears n

structure Posted (b : Bus) : Prop where
  known : ∀ address ns, b.addresses.get? address = some ns →
    ns ≠ [] ∧ ∀ n ∈ ns, n < b.places.length
  live : ∀ address, ((b.addresses.get? address).getD []).filter b.hears =
    (List.range b.places.length).filter (b.hearsAt address)

section
variable {b : Bus} {address : String} {n : Nat} {l : Listener} {a : Announcement}

theorem hears_eq (b : Bus) (n : Nat) : b.hears n = b.listeners[n]?.any (·.hearing == .hears) := by
  unfold hears
  cases b.listeners[n]? <;> rfl

theorem hearsAt_of_getElem? (found : b.listeners[n]? = some l) :
    b.hearsAt address n = true ↔ l.address = address ∧ l.hearing = .hears := by
  simp [hearsAt, places, hears_eq, found]

theorem posted_start : start.Posted where
  known _ _ found := nomatch found
  live _ := rfl

theorem Posted.mem_live (posted : b.Posted) (address : String) (n : Nat) :
    n ∈ ((b.addresses.get? address).getD []).filter b.hears ↔ b.hearsAt address n = true := by
  rw [posted.live, List.mem_filter, List.mem_range]
  refine ⟨And.right, fun listens => ⟨?_, listens⟩⟩
  by_contra beyond
  rw [hearsAt, List.getElem?_eq_none (Nat.le_of_not_lt beyond)] at listens
  cases listens

/-- the count of an address is that of its listeners -/
theorem Posted.listenerCount (posted : b.Posted) (address : String) :
    b.listenerCount address = (List.range b.places.length).countP (b.hearsAt address) := by
  rw [Bus.listenerCount, posted.live, List.countP_eq_length_filter]

/-- some listeners fall silent, and nobody is struck off for that -/
theorem Posted.silenced {b' : Bus} (posted : b.Posted) (addresses : b'.addresses = b.addresses)
    (places : b'.places = b.places) (still : Nat → Bool)
    (hears : ∀ n, b'.hears n = (still n && b.hears n)) : b'.Posted where
  known := by
    rw [addresses, places]
    exact posted.known
  live address := by
    have here (n : Nat) : b'.hearsAt address n = (still n && b.hearsAt address n) := by
      rw [hearsAt, hearsAt, places, hears, Bool.and_left_comm]
    rw [addresses, places, funext hears, funext here, ← List.filter_filter, ← List.filter_filter,
      posted.live]

/-! ## operations on one listener -/

theorem getElem?_update (b : Bus) (n : Nat) (f : Listener → Listener) (m : Nat) :
    (b.update n f).listeners[m]? = b.listeners[m]?.map fun l => if n = m then f l else l :=
  List.getElem?_modify ..

theorem places_update (b : Bus) (n : Nat) {f : Listener → Listener}
    (same : ∀ l, (f l).address = l.address) : (b.update n f).places = b.places := by
  refine List.ext_getElem? fun m => ?_
  rw [places, places, List.getElem?_map, List.getElem?_map, getElem?_update, Option.map_map]
  congr 1
  funext l
  show (if n = m then f l else l).address = l.address
  split
  · exact same l
  · rfl

theorem hears_update (b : Bus) (n m : Nat) (f : Listener → Listener) :
    (b.update n f).hears m = if n = m then b.listeners[m]?.any (fun l => (f l).hearing == .hears)
      else b.hears m := by
  rw [hears_eq, hears_eq, getElem?_update, Option.any_map]
  split <;> rfl

theorem Posted.close (posted : b.Posted) (n : Nat) : (b.close n).Posted := by
  refine posted.silenced rfl (places_update b n fun l => by split <;> rfl) (· ≠ n) fun m => ?_
  rw [Bus.close, hears_update]
  split
  · next is =>
    subst is
    cases b.listeners[n]? with
    | none => simp
    | some l => by_cases h : l.hearing = .hears <;> simp [h]
  · next other => simp [Ne.symm other]

theorem Posted.drop (posted : b.Posted) (n : Nat) : (b.drop n).Posted := by
  refine posted.silenced rfl (places_update b n fun _ => rfl) (· ≠ n) fun m => ?_
  rw [Bus.drop, hears_update]
  split
  · next is =>
    subst is
    cases b.listeners[n]? <;> simp
  · next other => simp [Ne.symm other]

/-- an operation on what a listener has not received yet -/
theorem hears_update_of_same {f : Listener → Listener} (same : ∀ l, (f l).hearing = l.hearing)
    (b : Bus) (n m : Nat) : (b.update n f).hears m = b.hears m := by
  rw [hears_update]
  split
  · next is =>
    subst is
    simp only [same, hears_eq]
  · rfl

/-- a listener finds a message, or nothing changes -/
theorem receive_cases (b : Bus) (n : Nat) :
    (∃ found, (found = .empty ∨ found = .closed) ∧ b.receive n = (b, found)) ∨
      ∃ l a rest, b.listeners[n]? = some l ∧ l.waiting = a :: rest ∧
        b.receive n = (b.update n fun l => { l with waiting := rest }, .message a) := by
  unfold receive
  cases here : b.listeners[n]? with
  | none => exact .inl ⟨.closed, .inr rfl, rfl⟩
  | some l =>
    cases front : l.waiting with
    | nil =>
      refine .inl ⟨if l.hearing = .hears then .empty else .closed, ?_, by simp only [front]⟩
      split
      · exact .inl rfl
      · exact .inr rfl
    | cons a rest => exact .inr ⟨l, a, rest, rfl, front, by simp only [front]⟩

theorem Posted.receive (posted : b.Posted) (n : Nat) : (b.receive n).1.Posted := by
  unfold Bus.receive
  split
  · exact posted
  · split
    · next a rest _ =>
      have same := hears_update_of_same (f := fun l => { l with waiting := rest })
        (fun _ => rfl) b n
      exact posted.silenced rfl (places_update b n fun _ => rfl) (fun _ => true) same
    · exact posted

/-! ## publishing -/

theorem getElem?_deliver {ns : List Nat} (once : ns.Nodup) (b : Bus) (a : Announcement) (m : Nat) :
    (b.deliver a ns).listeners[m]? =
      b.listeners[m]?.map fun l =>
        if m ∈ ns then { l with waiting := l.waiting ++ [a] } else l := by
  induction ns generalizing b with
  | nil => simp [deliver]
  | cons n ns ih =>
    obtain ⟨new, once⟩ := List.nodup_cons.mp once
    show ((b.update n _).deliver a ns).listeners[m]? = _
    rw [ih once, getElem?_update, Option.map_map]
    congr 1
    funext l
    by_cases is : n = m
    · subst is
      simp [new]
    · simp [is, Ne.symm is]

theorem hears_deliver (b : Bus) (a : Announcement) (ns : List Nat) :
    (b.deliver a ns).hears = b.hears := by
  induction ns generalizing b with
  | nil => rfl
  | cons n ns ih =>
    have same := hears_update_of_same (f := fun l => { l with waiting := l.waiting ++ [a] })
      (fun _ => rfl) b n
    exact (ih _).trans (funext same)

theorem places_deliver (b : Bus) (a : Announcement) (ns : List Nat) :
    (b.deliver a ns).places = b.places := by
  induction ns generalizing b with
  | nil => rfl
  | cons n ns ih => exact (ih _).trans (places_update b n fun _ => rfl)

/-- **A message is for each listener at its address that hears**, whoever else is there. -/
theorem getElem?_publish (posted : b.Posted) (address : String) (a : Announcement) (n : Nat) :
    (b.publish address a).listeners[n]? = b.listeners[n]?.map fun l =>
      if l.address = address ∧ l.hearing = .hears then { l with waiting := l.waiting ++ [a] }
      else l := by
  have live := posted.live address
  have told := posted.mem_live address n
  unfold publish
  cases found : b.addresses.get? address with
  | none =>
    rw [found] at told
    show b.listeners[n]? = _
    cases here : b.listeners[n]? with
    | none => rfl
    | some l =>
      rw [hearsAt_of_getElem? here] at told
      rw [Option.map_some, if_neg fun is => nomatch told.mpr is]
  | some ns =>
    rw [found] at live told
    have once : (ns.filter b.hears).Nodup := by
      show ((some ns).getD [] |>.filter b.hears).Nodup
      rw [live]
      exact List.nodup_range.filter _
    show (b.deliver a (ns.filter b.hears)).listeners[n]? = _
    rw [getElem?_deliver once]
    cases here : b.listeners[n]? with
    | none => rfl
    | some l =>
      rw [hearsAt_of_getElem? here] at told
      rw [Option.map_some, Option.map_some]
      congr 1
      exact if_congr told rfl rfl

theorem places_publish (b : Bus) (address : String) (a : Announcement) :
    (b.publish address a).places = b.places := by
  unfold publish
  split
  · rfl
  · exact places_deliver b a _

theorem hears_publish (b : Bus) (address : String) (a : Announcement) :
    (b.publish address a).hears = b.hears := by
  unfold publish
  split
  · rfl
  · exact hears_deliver b a _

/-- the silent ones at the address are struck off, and an empty address with them -/
theorem get?_publish (b : Bus) (address : String) (a : Announcement) (there : String) :
    (b.publish address a).addresses.get? there =
      if address = there then
        ((b.addresses.get? there).map fun ns => ns.filter b.hears).filter (· ≠ [])
      else b.addresses.get? there := by
  unfold publish
  split
  · next none =>
    split
    · next is => rw [← is, none]; rfl
    · rfl
  · next ns found =>
    show (if (ns.filter b.hears).isEmpty then b.addresses.erase address
      else b.addresses.insert address (ns.filter b.hears)).get? there = _
    by_cases is : address = there
    · rw [if_pos is, ← is, found, Option.map_some]
      cases ns.filter b.hears with
      | nil => exact (Fields.get?_erase ..).trans (if_pos rfl)
      | cons => exact (Fields.get?_insert ..).trans (if_pos rfl)
    · rw [if_neg is]
      split
      · exact (Fields.get?_erase ..).trans (if_neg is)
      · exact (Fields.get?_insert ..).trans (if_neg is)

theorem getD_filter_ne_nil (ns? : Option (List Nat)) :
    (ns?.filter (· ≠ [])).getD [] = ns?.getD [] := by
  match ns? with
  | none | some [] | some (_ :: _) => rfl

theorem Posted.publish (posted : b.Posted) (address : String) (a : Announcement) :
    (b.publish address a).Posted where
  known there ns found := by
    rw [places_publish]
    rw [get?_publish] at found
    split at found
    · obtain ⟨found, some⟩ := Option.filter_eq_some_iff.mp found
      obtain ⟨before, known, rfl⟩ := Option.map_eq_some_iff.mp found
      refine ⟨of_decide_eq_true some, fun n hn => ?_⟩
      exact (posted.known there before known).2 n (List.mem_filter.mp hn).1
    · exact posted.known there ns found
  live there := by
    have here (n : Nat) : (b.publish address a).hearsAt there n = b.hearsAt there n := by
      rw [hearsAt, hearsAt, places_publish, hears_publish]
    rw [places_publish, hears_publish, funext here, ← posted.live, get?_publish]
    split
    · rw [getD_filter_ne_nil]
      cases b.addresses.get? there with
      | none => rfl
      | some ns =>
        show (ns.filter b.hears).filter b.hears = ns.filter b.hears
        rw [List.filter_filter]
        exact List.filter_congr fun n _ => Bool.and_self _
    · rfl

/-! ## listening -/

theorem places_listen (b : Bus) (address : String) :
    (b.listen address).1.places = b.places ++ [address] := List.map_append

theorem getElem?_listen (b : Bus) (address : String) (n : Nat) :
    (b.listen address).1.listeners[n]? =
      if n = b.places.length then some ⟨address, .hears, []⟩ else b.listeners[n]? := by
  show (b.listeners ++ [_])[n]? = _
  rw [places, List.length_map, List.getElem?_append]
  split
  · next inside => rw [if_neg (Nat.ne_of_lt inside)]
  · next beyond =>
    split
    · next is => rw [is, Nat.sub_self]; rfl
    · next other =>
      rw [List.getElem?_eq_none (by simp; omega), List.getElem?_eq_none (by omega)]

theorem get?_listen (b : Bus) (address there : String) :
    (b.listen address).1.addresses.get? there =
      if address = there then some ((b.addresses.get? there).getD [] ++ [b.places.length])
      else b.addresses.get? there := by
  rw [listen, Fields.get?_insert, places, List.length_map]
  split
  · next is => rw [is]
  · rfl

theorem hears_listen (b : Bus) (address : String) (n : Nat) :
    (b.listen address).1.hears n = (n = b.places.length || b.hears n) := by
  rw [hears_eq, hears_eq, getElem?_listen]
  by_cases new : n = b.places.length <;> simp [new]

/-- the numbers under an address are those of listeners -/
theorem Posted.lt (posted : b.Posted) (inside : n ∈ (b.addresses.get? address).getD []) :
    n < b.places.length := by
  cases found : b.addresses.get? address with
  | none => rw [found] at inside; cases inside
  | some ns =>
    rw [found] at inside
    exact (posted.known address ns found).2 n inside

theorem Posted.listen (posted : b.Posted) (address : String) :
    (b.listen address).1.Posted where
  known there ns found := by
    rw [places_listen, List.length_append]
    rw [get?_listen] at found
    split at found
    · cases found
      refine ⟨List.append_ne_nil_of_right_ne_nil _ (List.cons_ne_nil _ _), fun n hn => ?_⟩
      rcases List.mem_append.mp hn with old | new
      · exact Nat.lt_succ_of_lt (posted.lt old)
      · rw [List.mem_singleton.mp new]
        exact Nat.lt_succ_self _
    · obtain ⟨some, inside⟩ := posted.known there ns found
      exact ⟨some, fun n hn => Nat.lt_succ_of_lt (inside n hn)⟩
  live there := by
    let b' := (b.listen address).1
    have before (n : Nat) (inside : n < b.places.length) :
        b'.hears n = b.hears n ∧ b'.hearsAt there n = b.hearsAt there n := by
      have hears : b'.hears n = b.hears n := by
        rw [hears_listen, decide_eq_false (Nat.ne_of_lt inside)]
        rfl
      refine ⟨hears, ?_⟩
      rw [hearsAt, hearsAt, hears, places_listen, List.getElem?_append_left inside]
    have now : b'.hears b.places.length = true ∧
        b'.hearsAt there b.places.length = decide (address = there) := by
      have hears : b'.hears b.places.length = true := by
        rw [hears_listen, decide_eq_true rfl]
        rfl
      refine ⟨hears, ?_⟩
      rw [hearsAt, hears, places_listen, List.getElem?_concat_length, Bool.and_true]
      simp
    have old : ((b.addresses.get? there).getD []).filter b'.hears =
        (List.range b.places.length).filter (b'.hearsAt there) := by
      rw [List.filter_congr fun n hn => (before n (posted.lt hn)).1,
        List.filter_congr fun n hn => (before n (List.mem_range.mp hn)).2, posted.live]
    rw [places_listen, List.length_append, get?_listen]
    show _ = (List.range (b.places.length + 1)).filter _
    rw [List.range_succ, List.filter_append, ← old]
    split
    · next is =>
      show List.filter _ (_ ++ [_]) = _
      rw [List.filter_append, List.filter_singleton, List.filter_singleton, now.1, now.2,
        decide_eq_true is]
    · next other =>
      rw [List.filter_singleton, now.2, decide_eq_false other]
      exact (List.append_nil _).symm

end
end Bus

/-! ## one listener -/

namespace Listener

/-- a listener after what was done since it came: it was closed or dropped then, or not, and has
received, or not received yet, what it was to hear -/
structure Follows (n : Nat) (since : List Bus.Act) (l : Listener) (received : List Announcement) :
    Prop where
  hears : l.hearing = .hears ↔ .close n ∉ since ∧ .drop n ∉ since
  heard : .drop n ∉ since → received ++ l.waiting = Bus.Act.due n l.address since

section
variable {n : Nat} {since : List Bus.Act} {l : Listener} {got : List Announcement}
  {x : Bus.Act}

theorem follows_fresh (n : Nat) (address : String) :
    Follows n [] ⟨address, .hears, []⟩ [] :=
  ⟨⟨fun _ => ⟨nofun, nofun⟩, fun _ => rfl⟩, fun _ => rfl⟩

/-- something is done that is not for this listener -/
theorem Follows.other (h : Follows n since l got) (unclosed : x ≠ .close n) (kept : x ≠ .drop n)
    (apart : x.published? l.address = none ∨ l.hearing ≠ .hears) :
    Follows n (since ++ [x]) l got where
  hears := by
    rw [h.hears]
    simp [Ne.symm unclosed, Ne.symm kept]
  heard undropped := by
    have before : .drop n ∉ since := fun is => undropped (List.mem_append_left _ is)
    rw [h.heard before, Bus.Act.due_concat]
    split
    · exact (List.append_nil _).symm
    · next unheard =>
      rcases apart with silent | deaf
      · rw [silent]
        exact (List.append_nil _).symm
      · exact absurd (h.hears.mpr ⟨unheard, before⟩) deaf

/-- a message for it -/
theorem Follows.told (h : Follows n since l got) (hears : l.hearing = .hears)
    (a : Announcement) :
    Follows n (since ++ [.publish l.address a]) { l with waiting := l.waiting ++ [a] } got where
  hears := by
    rw [h.hears]
    simp
  heard _ := by
    obtain ⟨unclosed, undropped⟩ := h.hears.mp hears
    rw [Bus.Act.due_concat, if_neg unclosed, ← h.heard undropped, List.append_assoc]
    simp [Bus.Act.published?]

theorem Follows.closed (h : Follows n since l got) :
    Follows n (since ++ [.close n])
      (if l.hearing = .hears then { l with hearing := .closed } else l)
      got where
  hears := by
    split
    · simp
    · next deaf => simp [deaf]
  heard undropped := by
    have before : .drop n ∉ since := fun is => undropped (List.mem_append_left _ is)
    rw [Bus.Act.due_concat]
    have waiting : (if l.hearing = .hears then { l with hearing := .closed } else l).waiting =
        l.waiting := by
      split <;> rfl
    have address : (if l.hearing = .hears then { l with hearing := .closed } else l).address =
        l.address := by
      split <;> rfl
    rw [waiting, address, h.heard before]
    split <;> exact (List.append_nil _).symm

theorem follows_dropped (l : Listener) (n : Nat) (since : List Bus.Act)
    (got : List Announcement) :
    Follows n (since ++ [.drop n]) { l with hearing := .dropped, waiting := [] } got where
  hears := by simp
  heard undropped := absurd (List.mem_append_right _ List.mem_cons_self) undropped

/-- it receives the next message -/
theorem Follows.next (h : Follows n since l got) {a : Announcement}
    {rest : List Announcement} (front : l.waiting = a :: rest) :
    Follows n (since ++ [.receive n]) { l with waiting := rest } (got ++ [a]) where
  hears := by
    rw [h.hears]
    simp
  heard undropped := by
    have before : .drop n ∉ since := fun is => undropped (List.mem_append_left _ is)
    rw [Bus.Act.due_concat, List.append_assoc]
    show got ++ a :: rest = _
    rw [← front, h.heard before]
    split <;> exact (List.append_nil _).symm

end
end Listener

/-! ## courses -/

structure Broadcast where
  bus : Bus
  /-- what was received so far, each with the number of its listener -/
  received : List (Nat × Announcement)

namespace Broadcast

def start : Broadcast := ⟨.start, []⟩

def next (s : Broadcast) : Bus.Act → Broadcast
  | .listen address => { s with bus := (s.bus.listen address).1 }
  | .publish address a => { s with bus := s.bus.publish address a }
  | .close n => { s with bus := s.bus.close n }
  | .drop n => { s with bus := s.bus.drop n }
  | .receive n =>
    match s.bus.receive n with
    | (bus, .message a) => ⟨bus, s.received ++ [(n, a)]⟩
    | (bus, _) => { s with bus := bus }

def run (acts : List Bus.Act) : Broadcast := acts.foldl next start

/-- what a listener has not received yet -/
def waiting (s : Broadcast) (n : Nat) : List Announcement :=
  (s.bus.listeners[n]?.map Listener.waiting).getD []

/-- the bus and its listeners after these acts -/
structure Follows (acts : List Bus.Act) (s : Broadcast) : Prop where
  posted : s.bus.Posted
  count : s.bus.places.length = acts.countP Bus.Act.isListen
  each : ∀ n l, s.bus.listeners[n]? = some l → ∃ since,
    Bus.Act.since? n acts = some (l.address, since) ∧ l.Follows n since (under n s.received)
  /-- who is still to come has received nothing -/
  early : ∀ n, s.bus.places.length ≤ n → under n s.received = []

section
variable {s : Broadcast} {acts : List Bus.Act} {x : Bus.Act}

/-- an act that brings no listener: all of them follow if each does -/
theorem Follows.step (h : s.Follows acts) {bus : Bus} {received : List (Nat × Announcement)}
    (posted : bus.Posted) (places : bus.places = s.bus.places) (silent : x.isListen = false)
    (change : Nat → Listener → Listener) (same : ∀ n l, (change n l).address = l.address)
    (listeners : ∀ n, bus.listeners[n]? = s.bus.listeners[n]?.map (change n))
    (each : ∀ n l since, s.bus.listeners[n]? = some l → l.Follows n since (under n s.received) →
      (change n l).Follows n (since ++ [x]) (under n received))
    (early : ∀ n, s.bus.places.length ≤ n → under n received = under n s.received) :
    Follows (acts ++ [x]) ⟨bus, received⟩ where
  posted := posted
  count := by
    rw [places, h.count, List.countP_append, List.countP_cons_of_neg (by rw [silent]; decide)]
    rfl
  each n l' found := by
    obtain ⟨l, here, rfl⟩ := Option.map_eq_some_iff.mp ((listeners n).symm.trans found)
    obtain ⟨since, came, follows⟩ := h.each n l here
    exact ⟨since ++ [x], (same n l).symm ▸ Bus.Act.since?_append came [x],
      each n l since here follows⟩
  early n beyond := by
    have beyond : s.bus.places.length ≤ n := places ▸ beyond
    exact (early n beyond).trans (h.early n beyond)

theorem Follows.listen (h : s.Follows acts) (address : String) :
    Follows (acts ++ [.listen address]) (s.next (.listen address)) where
  posted := h.posted.listen address
  count := by
    show (s.bus.listen address).1.places.length = _
    rw [Bus.places_listen, List.length_append, h.count, List.countP_append]
    rfl
  each n l found := by
    have found := (Bus.getElem?_listen s.bus address n).symm.trans found
    split at found
    · next new =>
      cases found
      refine ⟨[], ?_, ?_⟩
      · rw [new, h.count]
        exact Bus.Act.since?_listen address acts
      · show Listener.Follows n [] _ (under n s.received)
        rw [h.early n (Nat.le_of_eq new.symm)]
        exact Listener.follows_fresh n address
    · obtain ⟨since, came, follows⟩ := h.each n l found
      exact ⟨_, Bus.Act.since?_append came _, follows.other nofun nofun (.inl rfl)⟩
  early n beyond := by
    have beyond : (s.bus.listen address).1.places.length ≤ n := beyond
    rw [Bus.places_listen, List.length_append] at beyond
    exact h.early n (Nat.le_of_succ_le beyond)

theorem Follows.publish (h : s.Follows acts) (address : String) (a : Announcement) :
    Follows (acts ++ [.publish address a]) (s.next (.publish address a)) := by
  refine h.step (h.posted.publish address a) (Bus.places_publish ..) rfl
    (fun _ l => if l.address = address ∧ l.hearing = .hears then
      { l with waiting := l.waiting ++ [a] } else l) (fun n l => by split <;> rfl)
    (Bus.getElem?_publish h.posted address a) (fun n l since here follows => ?_) fun _ _ => rfl
  split
  · next told =>
    rw [← told.1]
    exact follows.told told.2 a
  · next untold =>
    refine follows.other nofun nofun ?_
    by_cases is : l.address = address
    · exact .inr fun hears => untold ⟨is, hears⟩
    · exact .inl (if_neg (Ne.symm is))

theorem Follows.close (h : s.Follows acts) (m : Nat) :
    Follows (acts ++ [.close m]) (s.next (.close m)) := by
  refine h.step (h.posted.close m) (Bus.places_update _ _ fun l => by split <;> rfl) rfl
    (fun n l => if m = n then (if l.hearing = .hears then { l with hearing := .closed } else l)
      else l) (fun n l => ?_) (Bus.getElem?_update s.bus m _)
    (fun n l since here follows => ?_) fun _ _ => rfl
  · split
    · split <;> rfl
    · rfl
  · split
    · next is =>
      rw [is]
      exact follows.closed
    · next other =>
      exact follows.other (fun is => other (Bus.Act.close.inj is)) nofun (.inl rfl)

theorem Follows.drop (h : s.Follows acts) (m : Nat) :
    Follows (acts ++ [.drop m]) (s.next (.drop m)) := by
  refine h.step (h.posted.drop m) (Bus.places_update _ _ fun _ => rfl) rfl
    (fun n l => if m = n then { l with hearing := .dropped, waiting := [] } else l)
    (fun n l => by split <;> rfl) (Bus.getElem?_update s.bus m _)
    (fun n l since here follows => ?_) fun _ _ => rfl
  split
  · next is =>
    rw [is]
    exact Listener.follows_dropped l n since _
  · next other =>
    exact follows.other nofun (fun is => other (Bus.Act.drop.inj is)) (.inl rfl)

/-- a listener receives the first of the messages that wait for it -/
theorem Follows.receive_message (h : s.Follows acts) {m : Nat} {l : Listener} {a : Announcement}
    {rest : List Announcement} (here : s.bus.listeners[m]? = some l)
    (front : l.waiting = a :: rest)
    (posted : (s.bus.update m fun l => { l with waiting := rest }).Posted) :
    Follows (acts ++ [.receive m])
      ⟨s.bus.update m fun l => { l with waiting := rest }, s.received ++ [(m, a)]⟩ := by
  refine h.step posted (Bus.places_update _ _ fun _ => rfl) rfl
    (fun n l => if m = n then { l with waiting := rest } else l) (fun n l => by split <;> rfl)
    (Bus.getElem?_update s.bus m _) (fun n l' since there follows => ?_) fun n beyond => ?_
  · rw [under_append]
    split
    · next is =>
      subst is
      cases here.symm.trans there
      rw [under_cons, if_pos rfl]
      exact follows.next front
    · next other =>
      rw [under_cons, if_neg other]
      show Listener.Follows n _ l' (_ ++ [])
      rw [List.append_nil]
      exact follows.other nofun nofun (.inl rfl)
  · -- a listener that receives has come
    have inside : m < s.bus.places.length := by
      rw [Bus.places, List.length_map]
      exact (List.getElem?_eq_some_iff.mp here).1
    rw [under_append, under_cons, if_neg (by omega)]
    exact List.append_nil _

theorem Follows.receive (h : s.Follows acts) (m : Nat) :
    Follows (acts ++ [.receive m]) (s.next (.receive m)) := by
  have posted := h.posted.receive m
  rcases Bus.receive_cases s.bus m with ⟨found, none, got⟩ | ⟨l, a, rest, here, front, got⟩
  · have still : s.next (.receive m) = s := by
      rw [Broadcast.next, got]
      rcases none with rfl | rfl <;> rfl
    rw [still]
    exact h.step h.posted rfl rfl (fun _ l => l) (fun _ _ => rfl) (fun n => Option.map_id'.symm)
      (fun n l since here follows => follows.other nofun nofun (.inl rfl)) fun _ _ => rfl
  · have turn : s.next (.receive m) =
        ⟨s.bus.update m fun l => { l with waiting := rest }, s.received ++ [(m, a)]⟩ := by
      rw [Broadcast.next, got]
    rw [got] at posted
    rw [turn]
    exact h.receive_message here front posted

theorem Follows.next (h : s.Follows acts) (x : Bus.Act) : Follows (acts ++ [x]) (s.next x) := by
  cases x with
  | listen address => exact h.listen address
  | publish address a => exact h.publish address a
  | close m => exact h.close m
  | drop m => exact h.drop m
  | receive m => exact h.receive m

theorem follows_run (acts : List Bus.Act) : Follows acts (run acts) := by
  induction acts using List.reverseRecOn with
  | nil =>
    refine ⟨Bus.posted_start, rfl, fun n l found => ?_, fun _ _ => rfl⟩
    exact absurd (List.mem_of_getElem? found) List.not_mem_nil
  | append_singleton acts x ih =>
    rw [run, List.foldl_concat]
    exact ih.next x

/-- those who attend an address are those who hear there -/
theorem Follows.hearsAt (h : s.Follows acts) (address : String) (n : Nat) :
    s.bus.hearsAt address n = Bus.Act.attends address acts n := by
  cases here : s.bus.listeners[n]? with
  | none =>
    have beyond : acts.countP Bus.Act.isListen ≤ n := by
      rw [← h.count, Bus.places, List.length_map]
      exact List.getElem?_eq_none_iff.mp here
    rw [Bus.Act.attends, Bus.Act.since?_eq_none_iff.mpr beyond, Bus.hearsAt, Bus.hears_eq, here]
    exact Bool.and_false _
  | some l =>
    obtain ⟨since, came, follows⟩ := h.each n l here
    rw [Bool.eq_iff_iff, Bus.hearsAt_of_getElem? here, Bus.Act.attends, came, follows.hears]
    exact decide_eq_true_iff.symm

end

/-- **The bus loses, duplicates and reorders nothing.**  Whatever is done with a bus and its
listeners: what a listener that was not dropped has received, and then what it has not received yet,
is what was published at its address since it came and until it was closed.  A message is for each
listener at its address that hears, whoever else is or was there, and for nobody else.  The count of
an address is that of the listeners there that were neither closed nor dropped, and no address is
kept without listeners. -/
theorem heard_of_run (acts : List Bus.Act) :
    let s := run acts
    (∀ n address since, Bus.Act.since? n acts = some (address, since) → .drop n ∉ since →
      under n s.received ++ s.waiting n =
        (since.takeWhile (· ≠ .close n)).filterMap (Bus.Act.published? address)) ∧
    (∀ (address : String) (a : Announcement) (n : Nat),
      (s.bus.publish address a).listeners[n]? = s.bus.listeners[n]?.map fun l =>
        if l.address = address ∧ l.hearing = .hears then { l with waiting := l.waiting ++ [a] }
        else l) ∧
    (∀ address, s.bus.listenerCount address =
      (List.range (acts.countP Bus.Act.isListen)).countP (Bus.Act.attends address acts)) ∧
    ∀ address, s.bus.addresses.get? address ≠ some [] := by
  intro s
  have follows : s.Follows acts := follows_run acts
  refine ⟨fun n address since came undropped => ?_, Bus.getElem?_publish follows.posted,
    fun address => ?_, fun address none => (follows.posted.known address [] none).1 rfl⟩
  · have inside : n < s.bus.listeners.length := by
      rw [← List.length_map (f := Listener.address)]
      show n < s.bus.places.length
      rw [follows.count]
      by_contra beyond
      rw [Bus.Act.since?_eq_none_iff.mpr (Nat.le_of_not_lt beyond)] at came
      cases came
    have here := List.getElem?_eq_getElem inside
    obtain ⟨since', came', listener⟩ := follows.each n _ here
    cases came.symm.trans came'
    rw [waiting, here]
    exact listener.heard undropped
  · rw [follows.posted.listenerCount, follows.count, funext (follows.hearsAt address)]

/-- two listen at one address, a third elsewhere; one of the two is closed before the second
message, has received nothing yet, and still gets the first one -/
theorem heard_of_run_of_three :
    let a := Announcement.ofPush ⟨"news", "x", none⟩
    let b := Announcement.ofPush ⟨"news", "y", none⟩
    let acts : List Bus.Act := [.listen "app.news", .listen "app.news", .listen "app.other",
      .publish "app.news" a, .close 0, .receive 1, .publish "app.news" b, .drop 2, .receive 0]
    let s := run acts
    under 0 s.received ++ s.waiting 0 = [a] ∧ under 1 s.received ++ s.waiting 1 = [a, b] ∧
      s.bus.listenerCount "app.news" = 1 ∧ s.bus.listenerCount "app.other" = 0 := by
  intro a b acts s
  obtain ⟨heard, _, counted, _⟩ := heard_of_run acts
  exact ⟨heard 0 "app.news" (acts.drop 1) rfl (by decide),
    heard 1 "app.news" (acts.drop 2) rfl (by decide), counted "app.news", counted "app.other"⟩

end Broadcast
end RespLink
