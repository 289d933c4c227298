import RespLink.Reply
import RespLink.Text.Encoding

/-!
# Pushes

A server sends messages on a subscribed connection unasked, between the replies.  Such a push is an
array of fixed shape:

* `message`, channel, payload             for a subscribed channel;
* `pmessage`, pattern, channel, payload   for a subscribed pattern.

`Push.read` tells a push from a reply.
-/

namespace RespLink

/-- what a subscription names -/
inductive Kind where
  | channel
  | pattern
deriving DecidableEq, Repr

def Kind.name : Kind → String
  | .channel => "Channel"
  | .pattern => "Pattern"

structure Push where
  channel : String
  payload : String
  /-- the pattern that matched the channel, for a subscription to a pattern -/
  pattern : Option String
deriving DecidableEq, Repr

namespace Push

def kind (p : Push) : Kind := if p.pattern.isSome then .pattern else .channel

/-- what its subscription names -/
def key (p : Push) : String := p.pattern.getD p.channel

/-- the text of one element; nothing for an element that holds no text -/
def elementText (e : Encoding) : Reply → String
  | .bulk bytes => e.decode bytes
  | .simple text => text
  | .integer n => Numeral.ofInt n.toInt
  | _ => ""

def readItems (e : Encoding) : List Reply → Option Push
  | [word, channel, payload] =>
    if word.isBulk "message" then
      some ⟨elementText e channel, elementText e payload, none⟩
    else none
  | [word, pattern, channel, payload] =>
    if word.isBulk "pmessage" then
      some ⟨elementText e channel, elementText e payload, some (elementText e pattern)⟩
    else none
  | _ => none

/-- `none` for a reply that answers a command -/
def read (e : Encoding) : Reply → Option Push
  | .array items => readItems e items
  | _ => none

end Push
end RespLink
