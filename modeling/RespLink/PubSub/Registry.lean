import RespLink.Fields
import RespLink.PubSub.Push

/-!
# Subscriptions

A `Registry` holds, for channels and for patterns apart, where the messages of each subscribed key
are delivered.

* `Change`         what a command that subscribes or unsubscribes does to it;
* `apply`          carries a change out and says how many acknowledgements the command gets;
* `destination?`   where a push goes, if its key is subscribed.
-/

namespace RespLink

/-- a text that names where messages are delivered -/
abbrev Mailbox := String

inductive Change where
  /-- one mailbox per key; a later one of the same key replaces it -/
  | subscribe (kind : Kind) (mailboxes : List (String × Mailbox))
  /-- every key of the kind if the list is empty -/
  | unsubscribe (kind : Kind) (keys : List String)
deriving DecidableEq, Repr

structure Registry where
  channels : Fields Mailbox
  patterns : Fields Mailbox
deriving DecidableEq, Repr

namespace Registry

def empty : Registry := ⟨[], []⟩

def of (r : Registry) : Kind → Fields Mailbox
  | .channel => r.channels
  | .pattern => r.patterns

def set (r : Registry) (kind : Kind) (fields : Fields Mailbox) : Registry :=
  match kind with
  | .channel => { r with channels := fields }
  | .pattern => { r with patterns := fields }

theorem of_set (r : Registry) (kind k : Kind) (fields : Fields Mailbox) :
    (r.set kind fields).of k = if kind = k then fields else r.of k := by
  cases kind <;> cases k <;> rfl

/-! ## changes -/

def register (r : Registry) (kind : Kind) (key : String) (mailbox : Mailbox) : Registry :=
  r.set kind ((r.of kind).insert key mailbox)

def unregister (r : Registry) (kind : Kind) (key : String) : Registry :=
  r.set kind ((r.of kind).erase key)

def unregisterAll (r : Registry) (kind : Kind) : Registry := r.set kind []

def count (r : Registry) (kind : Kind) : Nat := (r.of kind).length

def has (r : Registry) (kind : Kind) (key : String) : Bool := (r.of kind).has key

/-- the registry after the change, and the acknowledgements that the server sends for it: one per
key, and at least one -/
def apply (r : Registry) : Change → Registry × Nat
  | .subscribe kind mailboxes =>
    (mailboxes.foldl (fun r (key, mailbox) => r.register kind key mailbox) r,
      max mailboxes.length 1)
  | .unsubscribe kind [] => (r.unregisterAll kind, max (r.count kind) 1)
  | .unsubscribe kind (key :: keys) =>
    ((key :: keys).foldl (fun r key => r.unregister kind key) r, keys.length + 1)

/-! ## messages -/

def destination? (r : Registry) (p : Push) : Option Mailbox := (r.of p.kind).get? p.key

/-! ## text in messages -/

def quotedKeys (keys : List String) : String := Quoted.list (keys.map Quoted.text)

def quoted (r : Registry) : String :=
  "Subscriptions \x7b channels: " ++ quotedKeys r.channels.keys
    ++ ", patterns: " ++ quotedKeys r.patterns.keys ++ " \x7d"

end Registry

def Change.quoted : Change → String
  | .subscribe kind mailboxes =>
    "Subscribe \x7b kind: " ++ kind.name ++ ", keys: "
      ++ Registry.quotedKeys (mailboxes.map Prod.fst) ++ " \x7d"
  | .unsubscribe kind keys =>
    "Unsubscribe \x7b kind: " ++ kind.name ++ ", keys: " ++ Registry.quotedKeys keys ++ " \x7d"

end RespLink
