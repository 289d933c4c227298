import RespLink.Answer
import RespLink.Client

/-!
# Calls

A `Call` is a command that a client knows by name: `request` is what it sends, `answer` the form in
which its result is handed over.
-/

namespace RespLink

inductive Call where
  | ping
  | get (key : String)
  | set (key value : String)
  | del (keys : List String)
  | incr (key : String)
  | publish (channel message : String)
  | info (part? : Option String)
  | hgetall (key : String)
  | eval (script : String) (keys args : List String)
  | subscribe (channels : List String)
  | psubscribe (patterns : List String)
  /-- from all channels if the list is empty -/
  | unsubscribe (channels : List String)
  | punsubscribe (patterns : List String)
  | quit
deriving DecidableEq, Repr

namespace Call

def ask (verb : String) (texts : List String) (shape : Shape) : Request :=
  ((Request.ofVerb verb).withTexts texts).returning shape

def request : Call → Request
  | ping => ask "PING" [] .text
  | get key => ask "GET" [key] .text
  | set key value => ask "SET" [key, value] .unit
  | del keys => ask "DEL" keys .integer
  | incr key => ask "INCR" [key] .integer
  | publish channel message => ask "PUBLISH" [channel, message] .integer
  | info part? => ask "INFO" part?.toList .text
  | hgetall key => ask "HGETALL" [key] .text
  | eval script keys args =>
    (((Request.ofVerb "EVAL").withTexts [script]).withArgs [.ofNat keys.length]).withTexts
      (keys ++ args)
  | subscribe channels => ask "SUBSCRIBE" channels .list
  | psubscribe patterns => ask "PSUBSCRIBE" patterns .list
  | unsubscribe channels => ask "UNSUBSCRIBE" channels .list
  | punsubscribe patterns => ask "PUNSUBSCRIBE" patterns .list
  | quit => ask "QUIT" [] .unit

def answer : Call → Value → Except Error Answer
  | ping, v => Answer.ofText v
  | get _, v => Answer.ofTextIfAny v
  | del _, v | incr _, v | publish _ _, v => Answer.ofInteger v
  | info _, v | hgetall _, v => Answer.ofFields v
  | eval _ _ _, v => Answer.ofList v
  | _, _ => .ok .done

end Call
end RespLink
