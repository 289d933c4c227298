import RespLink.Proofs.Subscribers
import Mathlib.Data.Set.Card

/-!
# The last word on a key

Whatever was done to a registry, a key is registered as the last edit that spoke of it has left it,
for channels and for patterns apart.

* `Registry.Edit`   one thing that can be done to a registry;
* `Edit.word?`      what an edit says of a key: where its messages go, or that nobody hears them;
* `holder?`         the last word on a key, over any number of edits;
* `get?_foldl`      a list of edits of any sort, from what one of them does;
* `get?_edit`       one edit changes what is registered under a key to what it says;
* `Registry.Agrees.edit`   there is always a roll that a registry agrees with, so no key stands
                    twice;
* `delivers_to_holder`   deliveries and counts follow the last words, and kinds do not mix.
-/

namespace RespLink

/-- the kind of subscriptions that is changed -/
def Change.kind : Change → Kind
  | subscribe kind _ | unsubscribe kind _ => kind

namespace Registry

inductive Edit where
  | apply (change : Change)
  | register (kind : Kind) (key : String) (mailbox : Mailbox)
  | unregister (kind : Kind) (key : String)
  | unregisterAll (kind : Kind)
  /-- both kinds -/
  | clear
deriving DecidableEq, Repr

def edit (r : Registry) : Edit → Registry
  | .apply change => (r.apply change).1
  | .register kind key mailbox => r.register kind key mailbox
  | .unregister kind key => r.unregister kind key
  | .unregisterAll kind => r.unregisterAll kind
  | .clear => .empty

namespace Edit

/-- the only kind that is changed, if one is -/
def kind? : Edit → Option Kind
  | apply change => some change.kind
  | register kind .. | unregister kind _ | unregisterAll kind => some kind
  | clear => none

/-- what an edit says of a key: `some none` is that nothing is registered under it; in a list of keys
the last one of the name counts -/
def word? (kind : Kind) (key : String) : Edit → Option (Option Mailbox)
  | apply (.subscribe k mailboxes) =>
    mailboxes.reverse.findSome? fun (name, mailbox) =>
      if k = kind ∧ name = key then some (some mailbox) else none
  | apply (.unsubscribe k keys) =>
    if k = kind ∧ (keys = [] ∨ key ∈ keys) then some none else none
  | register k name mailbox => if k = kind ∧ name = key then some (some mailbox) else none
  | unregister k name => if k = kind ∧ name = key then some none else none
  | unregisterAll k => if k = kind then some none else none
  | clear => some none

end Edit

/-- where the last edit that speaks of a key has its messages go -/
def holder? (kind : Kind) (key : String) (edits : List Edit) : Option Mailbox :=
  (edits.reverse.findSome? (Edit.word? kind key)).join

/-! ## one key -/

section
variable {kind : Kind} {key : String}

/-- if each item leaves under the key what it says of it, the last one that speaks is heard -/
theorem get?_foldl {α : Type} {f : Registry → α → Registry} {tells : α → Option (Option Mailbox)}
    (each : ∀ r a, ((f r a).of kind).get? key = (tells a).getD ((r.of kind).get? key))
    (r : Registry) (items : List α) :
    ((items.foldl f r).of kind).get? key =
      (items.reverse.findSome? tells).getD ((r.of kind).get? key) := by
  induction items generalizing r with
  | nil => rfl
  | cons a rest ih =>
    rw [List.foldl_cons, ih, each, List.reverse_cons, List.findSome?_append]
    -- whoever speaks behind it is heard; if nobody does, it is
    cases rest.reverse.findSome? tells with
    | some word => rfl
    | none =>
      rw [Option.none_or, List.findSome?_cons]
      cases tells a <;> rfl

/-- what is found after one kind is set anew, from what its new fields say of the key -/
theorem get?_set {r : Registry} {k : Kind} {fields : Fields Mailbox}
    {word : Option (Option Mailbox)} (own : fields.get? key = word.getD ((r.of k).get? key)) :
    ((r.set k fields).of kind).get? key =
      (if k = kind then word else none).getD ((r.of kind).get? key) := by
  rw [of_set]
  by_cases same : k = kind
  · subst same
    rw [if_pos rfl, if_pos rfl, own]
  · rw [if_neg same, if_neg same, Option.getD_none]

theorem get?_register (r : Registry) (k : Kind) (name : String) (mailbox : Mailbox) :
    ((r.register k name mailbox).of kind).get? key =
      (if k = kind ∧ name = key then some (some mailbox) else none).getD
        ((r.of kind).get? key) := by
  rw [ite_and]
  refine get?_set ?_
  rw [Fields.get?_insert]
  split <;> rfl

theorem get?_unregister (r : Registry) (k : Kind) (name : String) :
    ((r.unregister k name).of kind).get? key =
      (if k = kind ∧ name = key then some none else none).getD ((r.of kind).get? key) := by
  rw [ite_and]
  refine get?_set ?_
  rw [Fields.get?_erase]
  split <;> rfl

theorem get?_unregisterAll (r : Registry) (k : Kind) :
    ((r.unregisterAll k).of kind).get? key =
      (if k = kind then some none else none).getD ((r.of kind).get? key) :=
  get?_set (Fields.get?_nil key)

/-- of keys that are all removed it does not matter which is the last -/
theorem findSome?_removed (k : Kind) (keys : List String) :
    (keys.reverse.findSome? fun name =>
        if k = kind ∧ name = key then some (none : Option Mailbox) else none) =
      if k = kind ∧ key ∈ keys then some none else none := by
  by_cases named : k = kind ∧ key ∈ keys
  · rw [if_pos named]
    cases found : keys.reverse.findSome? fun name =>
        if k = kind ∧ name = key then some (none : Option Mailbox) else none with
    | none =>
      have missed := List.findSome?_eq_none_iff.mp found key (List.mem_reverse.mpr named.2)
      rw [if_pos ⟨named.1, rfl⟩] at missed
      cases missed
    | some word =>
      obtain ⟨name, _, said⟩ := List.exists_of_findSome?_eq_some found
      split at said
      · exact said.symm
      · cases said
  · rw [if_neg named, List.findSome?_eq_none_iff]
    rintro name inside
    rw [if_neg]
    rintro ⟨same, rfl⟩
    exact named ⟨same, List.mem_reverse.mp inside⟩

theorem get?_unsubscribe (r : Registry) (k : Kind) (keys : List String) :
    ((r.apply (.unsubscribe k keys)).1.of kind).get? key =
      (if k = kind ∧ (keys = [] ∨ key ∈ keys) then some none else none).getD
        ((r.of kind).get? key) := by
  cases keys with
  | nil =>
    have all : (k = kind ∧ (([] : List String) = [] ∨ key ∈ [])) ↔ k = kind :=
      and_iff_left (.inl rfl)
    rw [if_congr all rfl rfl]
    exact get?_unregisterAll r k
  | cons first rest =>
    have some : (k = kind ∧ (first :: rest = [] ∨ key ∈ first :: rest)) ↔
        (k = kind ∧ key ∈ first :: rest) :=
      and_congr_right fun _ => or_iff_right (List.cons_ne_nil _ _)
    rw [if_congr some rfl rfl, ← findSome?_removed]
    exact get?_foldl (fun r name => get?_unregister r k name) r (first :: rest)

/-- what is registered under a key, one edit later -/
theorem get?_edit (r : Registry) (e : Edit) :
    ((r.edit e).of kind).get? key = (e.word? kind key).getD ((r.of kind).get? key) := by
  cases e with
  | apply change =>
    cases change with
    | subscribe k mailboxes =>
      exact get?_foldl (fun r (name, mailbox) => get?_register r k name mailbox) r mailboxes
    | unsubscribe k keys => exact get?_unsubscribe r k keys
  | register k name mailbox => exact get?_register r k name mailbox
  | unregister k name => exact get?_unregister r k name
  | unregisterAll k => exact get?_unregisterAll r k
  | clear => cases kind <;> rfl

/-- from an empty registry on, the last word is all there is -/
theorem get?_edits (edits : List Edit) :
    ((edits.foldl edit empty).of kind).get? key = holder? kind key edits := by
  have nothing : (empty.of kind).get? key = none := by cases kind <;> rfl
  rw [get?_foldl get?_edit, nothing, holder?]
  cases edits.reverse.findSome? (Edit.word? kind key) <;> rfl

end

/-! ## the other kind -/

section
variable {kind other : Kind}

theorem of_foldl {α : Type} {f : Registry → α → Registry}
    (each : ∀ r a, (f r a).of other = r.of other) (r : Registry) (items : List α) :
    (items.foldl f r).of other = r.of other := by
  induction items generalizing r with
  | nil => rfl
  | cons a rest ih => rw [List.foldl_cons, ih, each]

theorem of_set_of_ne (apart : other ≠ kind) (r : Registry) (fields : Fields Mailbox) :
    (r.set kind fields).of other = r.of other := by
  rw [of_set, if_neg (Ne.symm apart)]

/-- an edit of one kind leaves all that is registered under the other as it is -/
theorem of_edit {e : Edit} (own : e.kind? = some kind) (apart : other ≠ kind) (r : Registry) :
    (r.edit e).of other = r.of other := by
  cases e with
  | apply change =>
    cases change with
    | subscribe k mailboxes =>
      cases own
      exact of_foldl (fun r _ => of_set_of_ne apart r _) r mailboxes
    | unsubscribe k keys =>
      cases own
      cases keys with
      | nil => exact of_set_of_ne apart r _
      | cons first rest => exact of_foldl (fun r _ => of_set_of_ne apart r _) r (first :: rest)
  | register | unregister | unregisterAll =>
    cases own
    exact of_set_of_ne apart r _
  | clear => cases own

end

/-! ## counts -/

theorem Agrees.edit {registry : Registry} {r : Roll} (h : registry.Agrees r) (e : Edit) :
    ∃ r', (registry.edit e).Agrees r' := by
  cases e with
  | apply change =>
    cases change with
    | subscribe kind mailboxes => exact ⟨_, (h.subscribe kind mailboxes).1⟩
    | unsubscribe kind keys => exact ⟨_, (h.unsubscribe kind keys).1⟩
  | register kind key mailbox => exact ⟨_, h.register kind key mailbox⟩
  | unregister kind key => exact ⟨_, h.unregister kind key⟩
  | unregisterAll kind => exact ⟨r.set kind ∅, h.set List.nodup_nil rfl⟩
  | clear => exact ⟨_, agrees_empty⟩

theorem Agrees.edits {registry : Registry} {r : Roll} (h : registry.Agrees r)
    (edits : List Edit) : ∃ r', (edits.foldl Registry.edit registry).Agrees r' := by
  induction edits generalizing registry r with
  | nil => exact ⟨r, h⟩
  | cons e rest ih =>
    obtain ⟨_, next⟩ := h.edit e
    exact ih next

/-- with no key twice, a count is that of the keys under which something is found -/
theorem count_eq_encard {r : Registry} {kind : Kind} (once : (r.of kind).keys.Nodup) :
    (r.count kind : ℕ∞) = {key | ((r.of kind).get? key).isSome = true}.encard := by
  have keys : {key | ((r.of kind).get? key).isSome = true} = ↑(r.of kind).keys.toFinset := by
    ext key
    rw [List.coe_toFinset]
    exact (Fields.mem_keys_iff key (r.of kind)).symm
  rw [keys, Set.encard_coe_eq_coe_finsetCard, List.toFinset_card_of_nodup once, count, Fields.keys,
    List.length_map]

/-- **The last word on a key holds.**  After any edits, a push that names a key, as the link reads
its name, goes where the last edit that speaks of the key has sent it, and nowhere if that edit
has removed the key or if none speaks of it, for channels as for patterns.  An edit of one kind
changes nothing of the other.  Each count is the number of keys whose last word is a mailbox. -/
theorem delivers_to_holder (edits : List Edit) :
    let r := edits.foldl edit empty
    (∀ (l : Link) (n : Notice),
      (Link.onReply n.reply { l with role := .pubsub, registry := r }).effects =
        (holder? n.kind (n.key l.config.encoding) edits).toList.map fun mailbox =>
          .delivered mailbox (n.push l.config.encoding)) ∧
    (∀ (e : Edit) (kind : Kind), e.kind? = some kind → ∀ other, other ≠ kind →
      ∀ r : Registry, (r.edit e).of other = r.of other) ∧
    ∀ kind, (r.count kind : ℕ∞) = {key | (holder? kind key edits).isSome = true}.encard := by
  intro r
  refine ⟨fun l n => ?_, fun e kind own other apart => of_edit own apart, fun kind => ?_⟩
  · have heard := Link.effects_of_notice (l := { l with role := .pubsub, registry := r }) rfl n
    rw [heard]
    dsimp only
    rw [get?_edits]
  · obtain ⟨_, agrees⟩ := agrees_empty.edits edits
    have count := count_eq_encard (agrees.once kind)
    simp only [get?_edits] at count
    exact count

/-- a key twice in one list, the same key as a pattern, and a removal of the one kind -/
theorem delivers_to_holder_of_five :
    let edits : List Edit := [.apply (.subscribe .channel [("a", "1"), ("b", "2"), ("a", "3")]),
      .register .pattern "a" "4", .apply (.unsubscribe .pattern ["c", "a"]),
      .register .pattern "b" "5", .unregister .channel "b"]
    let r := edits.foldl edit empty
    let l := Link.start .pubsub .default
    (Link.onReply (Notice.message (.simple "a") (.simple "x")).reply
        { l with role := .pubsub, registry := r }).effects =
      [.delivered "3" ⟨"a", "x", none⟩] ∧
    (Link.onReply (Notice.pmessage (.simple "a") (.simple "ab") (.simple "x")).reply
        { l with role := .pubsub, registry := r }).effects = [] ∧
    (Edit.unregisterAll .channel).kind? = some .channel ∧ Kind.pattern ≠ .channel ∧
    (r.edit (.unregisterAll .channel)).of .pattern = r.of .pattern ∧
    r.of .pattern = [("b", "5")] := by
  intro edits r l
  obtain ⟨heard, apart, _⟩ := delivers_to_holder edits
  have own : (Edit.unregisterAll .channel).kind? = some .channel := rfl
  have other : Kind.pattern ≠ .channel := by decide
  have channel : holder? .channel "a" edits = some "3" := by decide +kernel
  have pattern : holder? .pattern "a" edits = none := by decide +kernel
  refine ⟨(heard l (.message (.simple "a") (.simple "x"))).trans ?_,
    (heard l (.pmessage (.simple "a") (.simple "ab") (.simple "x"))).trans ?_, own, other,
    apart _ _ own _ other r, by decide +kernel⟩
  · show (holder? .channel "a" edits).toList.map _ = _
    rw [channel]
    rfl
  · show (holder? .pattern "a" edits).toList.map _ = _
    rw [pattern]
    rfl

end Registry
end RespLink
