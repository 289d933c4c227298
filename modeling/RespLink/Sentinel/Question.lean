import RespLink.Answer
import RespLink.Link
import RespLink.Sentinel.Address

/-!
# Questions to a Sentinel

A `Question` is put to one Sentinel, which is dialled like a server: `request` is what is sent,
`answer` the form in which the result is handed over.
-/

namespace RespLink

/-- what a configuration says about finding a master does not matter for a Sentinel itself -/
def Config.withoutSentinels (config : Config) : Config :=
  { config with masterName := none, sentinels := [] }

/-- a link straight to the Sentinel at the configured host and port -/
def Link.toSentinel (config : Config) : Except Error Link :=
  config.withoutSentinels.validate.map fun _ => Link.start .command config.withoutSentinels

inductive Question where
  | masters
  | master (name : String)
  | slaves (name : String)
  | sentinels (name : String)
  /-- the address of a master, if the Sentinel knows it -/
  | address (name : String)
  | reset (pattern : String)
  | failover (name : String)
  | ckquorum (name : String)
  | flushConfig
  | info
deriving DecidableEq, Repr

namespace Question

def ask (texts : List String) (shape : Shape) : Request :=
  ((Request.ofVerb "SENTINEL").withTexts texts).returning shape

def request : Question → Request
  | masters => ask ["masters"] .list
  | master name => ask ["master", name] .list
  | slaves name => ask ["slaves", name] .list
  | sentinels name => ask ["sentinels", name] .list
  | address name => ask ["get-master-addr-by-name", name] .list
  | reset pattern => ask ["reset", pattern] .unit
  | failover name => ask ["failover", name] .text
  | ckquorum name => ask ["ckquorum", name] .text
  | flushConfig => ask ["flushconfig"] .unit
  | info => Request.ofVerb "INFO"

/-- the address of a master out of the value of a reply -/
def addressOf : Value → Except Error (Option Endpoint)
  | .nil => .ok none
  | .array [.text host, .text port] => (masterPort port).map fun port => some ⟨host, port⟩
  | .array items => .error (.unexpected (Quoted.list (Value.quotedItems items)))
  | v => .error (.unexpected v.quoted)

def answer : Question → Value → Except Error Answer
  | masters, v | master _, v | slaves _, v | sentinels _, v => Answer.ofList v
  | address _, v => (addressOf v).map .endpointIfAny
  | reset _, _ | flushConfig, _ => .ok .done
  | failover _, v | ckquorum _, v => Answer.ofText v
  | info, v => Answer.ofFields v

end Question
end RespLink
