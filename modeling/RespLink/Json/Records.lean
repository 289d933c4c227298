import RespLink.Endpoint
import RespLink.Json
import RespLink.PubSub.Announcement
import RespLink.Text.Encoding

/-!
# Records as JSON

How endpoints, encodings, deliveries and announcements are written as JSON and read again.

A record is an object of its fields, or an array of them in order.  In an object unknown members
are passed over, while a field that is missing or stands twice makes it no record; only the pattern
of a delivery may be missing or `null`.  The host of an endpoint may be called `ip`.
-/

namespace RespLink

/-! ## endpoints -/

namespace Endpoint

def toJson (e : Endpoint) : Json :=
  .object [(some "host".toList, .ofText e.host),
    (some "port".toList, .number (Nat.toDigits 10 e.port.toNat))]

/-- a whole number in range -/
def portOfJson? : Json → Option UInt16
  | .number literal =>
    if literal.all Json.isDigit then (Numeral.uint16 (String.ofList literal)).toOption else none
  | _ => none

def ofFields? (host port : Json) : Option Endpoint :=
  match host.text?, portOfJson? port with
  | some host, some port => some ⟨host, port⟩
  | _, _ => none

def ofJson? : Json → Option Endpoint
  | .array [host, port] => ofFields? host port
  | json =>
    json.members?.bind fun members =>
      (Json.required? ["host", "ip"] members).bind fun host =>
        (Json.required? ["port"] members).bind fun port => ofFields? host port

end Endpoint

/-! ## encodings -/

namespace Encoding

def jsonName : Encoding → String
  | .utf8 => "utf8"
  | .latin1 => "latin1"

def toJson (e : Encoding) : Json := .ofText e.jsonName

def ofJsonName? (name : String) : Option Encoding :=
  if name = "utf8" then some .utf8 else if name = "latin1" then some .latin1 else none

/-- the name itself, or an object with `null` under the name -/
def ofJson? : Json → Option Encoding
  | .string name => ofJsonName? (String.ofList name)
  | .object [(some name, .null)] => ofJsonName? (String.ofList name)
  | _ => none

end Encoding

/-! ## announcements -/

namespace Delivery

def toJson (d : Delivery) : Json :=
  .object ((match d.pattern with
    | some pattern => [(some "pattern".toList, Json.ofText pattern)]
    | none => []) ++
    [(some "channel".toList, .ofText d.channel), (some "message".toList, .ofText d.message)])

/-- `null` is no pattern -/
def patternOfJson? : Json → Option (Option String)
  | .null => some none
  | json => json.text?.map some

def ofFields? (pattern channel message : Json) : Option Delivery :=
  match patternOfJson? pattern, channel.text?, message.text? with
  | some pattern, some channel, some message => some ⟨pattern, channel, message⟩
  | _, _, _ => none

def ofJson? : Json → Option Delivery
  | .array [pattern, channel, message] => ofFields? pattern channel message
  | json =>
    json.members?.bind fun members =>
      (Json.member? ["pattern"] members).bind fun pattern =>
        (Json.required? ["channel"] members).bind fun channel =>
          (Json.required? ["message"] members).bind fun message =>
            ofFields? (pattern.getD .null) channel message

end Delivery

namespace Announcement

def toJson (a : Announcement) : Json :=
  .object [(some "status".toList, .ofText a.status), (some "value".toList, a.value.toJson)]

def ofFields? (status value : Json) : Option Announcement :=
  match status.text?, Delivery.ofJson? value with
  | some status, some value => some ⟨status, value⟩
  | _, _ => none

def ofJson? : Json → Option Announcement
  | .array [status, value] => ofFields? status value
  | json =>
    json.members?.bind fun members =>
      (Json.required? ["status"] members).bind fun status =>
        (Json.required? ["value"] members).bind fun value => ofFields? status value

/-- the text that listeners are sent -/
def text (a : Announcement) : String := String.ofList a.toJson.print

end Announcement
end RespLink
