import RespLink.PubSub.Push

/-!
# Announcements

What a client tells its listeners about a push.

* `Delivery`         channel, message and, for a pattern subscription, the pattern;
* `Announcement`     a delivery under a status, which is `ok`;
* `deliveryAddress`  where the announcements for a key go.
-/

namespace RespLink

structure Delivery where
  pattern : Option String
  channel : String
  message : String
deriving DecidableEq, Repr

structure Announcement where
  status : String
  value : Delivery
deriving DecidableEq, Repr

def Announcement.ofPush (p : Push) : Announcement := ⟨"ok", ⟨p.pattern, p.channel, p.payload⟩⟩

/-- base and key with a point between them -/
def deliveryAddress (base key : String) : String := base ++ "." ++ key

end RespLink
