import RespLink.Client.Call
import RespLink.Proofs.Moves
import RespLink.Proofs.Pipelines
import Mathlib.Data.Finset.Card

/-!
# Rolls

For every socket a server keeps a ROLL: the channels and the patterns that are subscribed on it.  It
changes when the server reads a command.  The registry of a link changes when the command is
submitted, which may be long before.

* `Roll.hear`         what a server makes of a command: the roll after it, and how many replies;
* `Roll.counts`       the numbers of replies for commands in a row;
* `Registry.Agrees`   registry and roll have the same keys;
* `Registry.enter`    what a link for subscriptions makes of a command that is submitted;
* `Command.Means`     link and server make the same of a command;
* `means_of_puts`     they do of every command of a call;
* `Roll.Neutral`      one reply and no change, as for all steps of the handshake.
-/

namespace RespLink

/-! ## the server -/

/-- what is subscribed on one socket -/
structure Roll where
  channels : Finset Bytes
  patterns : Finset Bytes
deriving DecidableEq

namespace Roll

/-- the roll of a new socket -/
def empty : Roll := ⟨∅, ∅⟩

def of (r : Roll) : Kind → Finset Bytes
  | .channel => r.channels
  | .pattern => r.patterns

def set (r : Roll) (kind : Kind) (keys : Finset Bytes) : Roll :=
  match kind with
  | .channel => { r with channels := keys }
  | .pattern => { r with patterns := keys }

theorem of_set (r : Roll) (kind k : Kind) (keys : Finset Bytes) :
    (r.set kind keys).of k = if kind = k then keys else r.of k := by
  cases kind <;> cases k <;> rfl

def add (r : Roll) (kind : Kind) (key : Bytes) : Roll := r.set kind (insert key (r.of kind))

def remove (r : Roll) (kind : Kind) (key : Bytes) : Roll := r.set kind ((r.of kind).erase key)

/-- each key is added, with a reply; no key at all is an error -/
def subscribe (r : Roll) (kind : Kind) (keys : List Bytes) : Roll × Nat :=
  if keys = [] then (r, 1) else (keys.foldl (fun r key => r.add kind key) r, keys.length)

/-- each key is removed, with a reply; no key at all stands for the whole set -/
def unsubscribe (r : Roll) (kind : Kind) (keys : List Bytes) : Roll × Nat :=
  if keys = [] then (r.set kind ∅, max 1 (r.of kind).card)
  else (keys.foldl (fun r key => r.remove kind key) r, keys.length)

/-- any other command gets one reply and changes nothing -/
def hear (r : Roll) (w : Wording) : Roll × Nat :=
  if w.verb = "SUBSCRIBE" then r.subscribe .channel w.args
  else if w.verb = "PSUBSCRIBE" then r.subscribe .pattern w.args
  else if w.verb = "UNSUBSCRIBE" then r.unsubscribe .channel w.args
  else if w.verb = "PUNSUBSCRIBE" then r.unsubscribe .pattern w.args
  else (r, 1)

/-- how many replies each of these commands gets -/
def counts : Roll → List Wording → List Nat
  | _, [] => []
  | r, w :: ws => (r.hear w).2 :: counts (r.hear w).1 ws

end Roll

/-- one reply and no change -/
def Wording.Neutral (w : Wording) : Prop := ∀ r : Roll, r.hear w = (r, 1)

theorem Wording.neutral_of_verb {verb : String}
    (other : verb ∉ ["SUBSCRIBE", "PSUBSCRIBE", "UNSUBSCRIBE", "PUNSUBSCRIBE"])
    (args : List Bytes) : Neutral ⟨verb, args⟩ := by
  intro r
  simp only [List.mem_cons, List.not_mem_nil, or_false, not_or] at other
  rw [Roll.hear, if_neg other.1, if_neg other.2.1, if_neg other.2.2.1, if_neg other.2.2.2]

/-! ## registry and roll -/

theorem Utf8.encode_injective : Function.Injective Utf8.encode := fun _ _ => Utf8.encode_inj

namespace Registry

structure Agrees (registry : Registry) (r : Roll) : Prop where
  once (kind : Kind) : (registry.of kind).keys.Nodup
  same (kind : Kind) : r.of kind = ((registry.of kind).keys.map Utf8.encode).toFinset

theorem agrees_empty : empty.Agrees .empty where
  once kind := by cases kind <;> exact List.nodup_nil
  same kind := by cases kind <;> rfl

section
variable {registry : Registry} {r : Roll}

theorem Agrees.count (h : registry.Agrees r) (kind : Kind) :
    registry.count kind = (r.of kind).card := by
  have once := (h.once kind).map Utf8.encode_injective
  rw [h.same, List.toFinset_card_of_nodup once, List.length_map, Registry.count, Fields.keys,
    List.length_map]

/-- the keys of one kind change, those of the other stay -/
theorem Agrees.set (h : registry.Agrees r) {kind : Kind} {fields : Fields Mailbox}
    {keys : Finset Bytes} (once : fields.keys.Nodup)
    (same : keys = (fields.keys.map Utf8.encode).toFinset) :
    (registry.set kind fields).Agrees (r.set kind keys) where
  once k := by
    rw [of_set]
    split
    · exact once
    · exact h.once k
  same k := by
    rw [of_set, Roll.of_set]
    split
    · exact same
    · exact h.same k

theorem Agrees.register (h : registry.Agrees r) (kind : Kind) (key : String) (mailbox : Mailbox) :
    (registry.register kind key mailbox).Agrees (r.add kind (Utf8.encode key)) := by
  refine h.set (Fields.nodup_keys_insert _ _ _ (h.once kind)) ?_
  ext bytes
  simp only [h.same, Finset.mem_insert, List.mem_toFinset, List.mem_map, Fields.mem_keys_insert]
  constructor
  · rintro (rfl | ⟨k, there, rfl⟩)
    · exact ⟨key, .inl rfl, rfl⟩
    · exact ⟨k, .inr there, rfl⟩
  · rintro ⟨k, rfl | there, rfl⟩
    · exact .inl rfl
    · exact .inr ⟨k, there, rfl⟩

theorem Agrees.unregister (h : registry.Agrees r) (kind : Kind) (key : String) :
    (registry.unregister kind key).Agrees (r.remove kind (Utf8.encode key)) := by
  refine h.set (Fields.nodup_keys_erase _ _ (h.once kind)) ?_
  ext bytes
  simp only [h.same, Finset.mem_erase, List.mem_toFinset, List.mem_map, Fields.mem_keys_erase]
  constructor
  · rintro ⟨apart, k, there, rfl⟩
    exact ⟨k, ⟨fun same => apart (congrArg Utf8.encode same), there⟩, rfl⟩
  · rintro ⟨k, ⟨apart, there⟩, rfl⟩
    exact ⟨fun same => apart (Utf8.encode_inj same), k, there, rfl⟩

/-- registry and roll go through a list of keys in step -/
theorem Agrees.foldl {α : Type} {f : Registry → α → Registry} {g : Roll → Bytes → Roll}
    {key : α → Bytes}
    (each : ∀ {registry r}, Agrees registry r → ∀ a, Agrees (f registry a) (g r (key a)))
    (h : registry.Agrees r) (items : List α) :
    Agrees (items.foldl f registry) ((items.map key).foldl g r) := by
  induction items generalizing registry r with
  | nil => exact h
  | cons a rest ih => exact ih (each h a)

/-- a subscription, and the replies that both sides count for it -/
theorem Agrees.subscribe (h : registry.Agrees r) (kind : Kind)
    (mailboxes : List (String × Mailbox)) :
    let keys := mailboxes.map fun m => Utf8.encode m.1
    (registry.apply (.subscribe kind mailboxes)).1.Agrees (r.subscribe kind keys).1 ∧
      max (registry.apply (.subscribe kind mailboxes)).2 1 = (r.subscribe kind keys).2 := by
  cases mailboxes with
  | nil => exact ⟨h, rfl⟩
  | cons m rest =>
    refine ⟨h.foldl (fun agrees (m : String × Mailbox) => agrees.register kind m.1 m.2)
      (m :: rest), ?_⟩
    show max (max (rest.length + 1) 1) 1 = (rest.map _).length + 1
    rw [List.length_map]
    omega

theorem Agrees.unsubscribe (h : registry.Agrees r) (kind : Kind) (names : List String) :
    let keys := names.map Utf8.encode
    (registry.apply (.unsubscribe kind names)).1.Agrees (r.unsubscribe kind keys).1 ∧
      max (registry.apply (.unsubscribe kind names)).2 1 = (r.unsubscribe kind keys).2 := by
  cases names with
  | nil =>
    refine ⟨h.set List.nodup_nil rfl, ?_⟩
    show max (max (registry.count kind) 1) 1 = max 1 (r.of kind).card
    rw [h.count]
    omega
  | cons name rest =>
    refine ⟨h.foldl (fun agrees name => agrees.unregister kind name) (name :: rest), ?_⟩
    show max (rest.length + 1) 1 = (rest.map _).length + 1
    rw [List.length_map]
    omega

end

/-! ## commands that are submitted -/

/-- the registry, and the command with the number of replies that it expects -/
def enter (registry : Registry) (c : Command) : Registry × Command :=
  match c.change? with
  | none => (registry, c)
  | some change => ((registry.apply change).1, c.expecting (registry.apply change).2)

theorem frame_enter (registry : Registry) (c : Command) :
    (registry.enter c).2.frame = c.frame := by
  unfold enter
  split <;> rfl

end Registry

theorem Link.send_of_pubsub {l : Link} (pubsub : l.role = .pubsub) (c : Command) :
    l.send c = queue (l.registry.enter c).2 { l with registry := (l.registry.enter c).1 } := by
  cases change : c.change? with
  | none =>
    unfold send Registry.enter
    rw [change]
  | some _ =>
    unfold send Registry.enter
    rw [change, pubsub]

/-- the command says this, and the link makes the same of it as a server that reads it -/
structure Command.Means (c : Command) (w : Wording) : Prop where
  frame : c.frame = w.frame
  agrees {registry : Registry} {r : Roll} (h : registry.Agrees r) :
    (registry.enter c).1.Agrees (r.hear w).1 ∧ (registry.enter c).2.expected = (r.hear w).2

theorem Command.means_of_neutral {t : Ticket} {r : Request} {e : Encoding}
    (neutral : (r.wording e).Neutral) : (ofRequest t r e).Means (r.wording e) := by
  refine ⟨rfl, fun {registry roll} h => ?_⟩
  rw [neutral roll]
  exact ⟨h, rfl⟩

/-- each step of the handshake is a command that leaves the roll alone -/
def Formal (steps : List (Handshake × Bytes)) : Prop :=
  ∀ step ∈ steps, ∃ w : Wording, step.2 = w.frame ∧ w.Neutral

namespace Config
variable (config : Config)

theorem formal_selectSteps : Formal config.selectSteps := by
  intro step inside
  obtain ⟨db, _, rfl⟩ := List.mem_map.mp inside
  exact ⟨⟨"SELECT", _⟩, rfl, Wording.neutral_of_verb (by decide) _⟩

theorem formal_roleSteps (sentinel? : Option Nat) : Formal (config.roleSteps sentinel?) := by
  intro step inside
  rcases List.mem_append.mp inside with role | select
  · obtain ⟨i, _, rfl⟩ := List.mem_map.mp role
    exact ⟨⟨"ROLE", _⟩, rfl, Wording.neutral_of_verb (by decide) _⟩
  · exact config.formal_selectSteps step select

theorem formal_greeting (sentinel? : Option Nat) : Formal (config.greeting sentinel?) := by
  intro step inside
  rcases List.mem_append.mp inside with auth | role
  · obtain ⟨password, _, rfl⟩ := List.mem_map.mp auth
    exact ⟨⟨"AUTH", _⟩, rfl, Wording.neutral_of_verb (by decide) _⟩
  · exact config.formal_roleSteps sentinel? step role

theorem formal_stepsAfter (h : Handshake) : Formal (config.stepsAfter h) := by
  cases h with
  | auth sentinel? => exact config.formal_roleSteps sentinel?
  | role => exact config.formal_selectSteps
  | select => exact fun _ inside => nomatch inside

end Config

/-! ## commands that a client submits -/

/-- no argument is a byte string of its own, so its name says all of it -/
structure Request.Textual (r : Request) : Prop where
  args : ∀ arg ∈ r.args, ∀ bs, arg ≠ .binary bs
  plain : r.binary = false

/-- a server reads the names of the keys -/
theorem Request.Textual.args_wording {r : Request} (h : r.Textual) {config : Config}
    (utf8 : config.encoding = .utf8) :
    (r.wording config.encoding).args = (Client.keys config r).map Utf8.encode := by
  have plain : r.encoding config.encoding = .utf8 := by
    rw [Request.encoding, h.plain, utf8]
    rfl
  rw [Request.wording, Client.keys, List.map_map, plain, utf8]
  refine List.map_congr_left fun arg inside => ?_
  cases arg with
  | binary bs => exact absurd rfl (h.args _ inside bs)
  | _ => rfl

namespace Client

/-- a command that some call puts on the link for subscriptions -/
def Puts (config : Config) (c : Command) : Prop :=
  ∃ (t : Ticket) (call : Call), (.pubsub, c) ∈ commands config t call.request

section
variable {config : Config} {c : Command}

/-- a change of subscriptions, or `QUIT` -/
theorem cases_of_pubsub {t : Ticket} {r : Request} (h : (.pubsub, c) ∈ commands config t r) :
    (∃ change, change? config r = some change ∧
      c = (Command.ofRequest t r config.encoding).changing change) ∨
    r.verb = "QUIT" ∧ c = Command.ofRequest t r config.encoding := by
  simp only [commands] at h
  split at h
  · next change some =>
    exact .inl ⟨change, some, (Prod.mk.inj (List.mem_singleton.mp h)).2⟩
  · split at h
    · next quits =>
      refine .inr ⟨of_decide_eq_true quits, ?_⟩
      rcases List.mem_cons.mp h with first | second
      · exact (Prod.mk.inj first).2
      · exact (Prod.mk.inj (List.mem_singleton.mp second)).2
    · cases (Prod.mk.inj (List.mem_singleton.mp h)).1

theorem fresh_of_puts (h : Puts config c) : c.Fresh := by
  obtain ⟨t, call, inside⟩ := h
  have fresh := Command.fresh_ofRequest t call.request config.encoding
  obtain ⟨change, _, rfl⟩ | ⟨_, rfl⟩ := cases_of_pubsub inside
  · exact fresh.changing change
  · exact fresh

theorem textual_request (call : Call) : call.request.Textual := by
  have texts (verb : String) (texts : List String) (shape : Shape) :
      (Call.ask verb texts shape).Textual := by
    refine ⟨fun arg inside bs => ?_, rfl⟩
    obtain ⟨text, _, rfl⟩ := List.mem_map.mp inside
    exact fun h => nomatch h
  cases call with
  | eval script keys args =>
    refine ⟨fun arg inside bs => ?_, rfl⟩
    rcases List.mem_append.mp inside with front | behind
    · rcases List.mem_append.mp front with first | number
      · rw [List.mem_singleton.mp first]
        exact fun h => nomatch h
      · rw [List.mem_singleton.mp number, Arg.ofNat]
        split <;> exact fun h => nomatch h
    · obtain ⟨text, _, rfl⟩ := List.mem_map.mp behind
      exact fun h => nomatch h
  | _ => exact texts _ _ _

/-- link and server make the same of a command that subscribes or unsubscribes -/
theorem means_of_change {r : Request} (textual : r.Textual) (utf8 : config.encoding = .utf8)
    {change : Change} (changes : change? config r = some change) (t : Ticket) :
    ((Command.ofRequest t r config.encoding).changing change).Means
      (r.wording config.encoding) := by
  refine ⟨rfl, fun {registry roll} h => ?_⟩
  have args := textual.args_wording utf8
  have boxes : (mailboxes config r).map (fun m => Utf8.encode m.1)
      = (keys config r).map Utf8.encode := by
    rw [mailboxes, List.map_map]
    rfl
  have verb : (r.wording config.encoding).verb = r.verb := rfl
  show (registry.apply change).1.Agrees _ ∧ max (registry.apply change).2 1 = _
  rw [Roll.hear, verb, args]
  rw [change?] at changes
  split_ifs at changes with s p u q
  · cases changes
    rw [if_pos s, ← boxes]
    exact h.subscribe .channel _
  · cases changes
    rw [if_neg s, if_pos p, ← boxes]
    exact h.subscribe .pattern _
  · cases changes
    rw [if_neg s, if_neg p, if_pos u]
    exact h.unsubscribe .channel _
  · cases changes
    rw [if_neg s, if_neg p, if_neg u, if_pos q]
    exact h.unsubscribe .pattern _

theorem means_of_puts (utf8 : config.encoding = .utf8) (h : Puts config c) : ∃ w, c.Means w := by
  obtain ⟨t, call, inside⟩ := h
  obtain ⟨change, changes, rfl⟩ | ⟨quits, rfl⟩ := cases_of_pubsub inside
  · exact ⟨_, means_of_change (textual_request call) utf8 changes t⟩
  · refine ⟨_, Command.means_of_neutral (Wording.neutral_of_verb ?_ _)⟩
    rw [quits]
    decide

end
end Client
end RespLink
