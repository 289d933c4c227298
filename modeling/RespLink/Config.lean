import RespLink.Endpoint
import RespLink.Text.Blank
import RespLink.Text.Encoding

/-!
# Configuration

A `Config` says which server a connection reaches, how, and what it tells the server first.
Durations are in milliseconds.

* `Config.ofConnectionString`  host, port and database out of a text such as
                               `redis://host:port/db`; a part that cannot be read keeps its default;
* `sentinelMode`               the server is found through Sentinels, by the name of its master;
* `validate`                   what must hold before a client starts.
-/

namespace RespLink

structure Config where
  host : String
  port : UInt16
  encoding : Encoding
  connectTimeout : Nat
  /-- idle time after which the stream is probed, if it is -/
  keepalive : Option Nat
  nodelay : Bool
  /-- sent on every connect -/
  password : Option String
  /-- selected on every connect -/
  database : Option UInt32
  masterName : Option String
  sentinels : List Endpoint
  /-- base of the addresses that deliveries go to -/
  address : String
  retryInterval : Nat
  /-- bound of one question to a Sentinel -/
  sentinelTimeout : Nat
deriving DecidableEq, Repr

def defaultPort : UInt16 := 6379

namespace Config

def default : Config where
  host := "localhost"
  port := defaultPort
  encoding := .utf8
  connectTimeout := 5000
  keepalive := some 60000
  nodelay := true
  password := none
  database := none
  masterName := none
  sentinels := []
  address := "redis-link"
  retryInterval := 300
  sentinelTimeout := 300

/-! ## connection strings -/

def scheme : List Char := "redis://".toList

/-- the text after the scheme, or all of it -/
def withoutScheme (cs : List Char) : List Char :=
  if cs.take scheme.length = scheme then cs.drop scheme.length else cs

/-- host and port: the port is what follows the last colon, if that is a port -/
def withEndpoint (config : Config) (cs : List Char) : Config :=
  let whole := if cs = [] then config else { config with host := String.ofList cs }
  match splitLast ':' cs with
  | none => whole
  | some (host, port) =>
    match Numeral.uint16 (String.ofList port) with
    | .ok port => { config with host := String.ofList host, port := port }
    | .error _ => whole

def ofConnectionString (s : String) : Config :=
  let cs := withoutScheme (Text.trim s.toList)
  match splitOnce '/' cs with
  | none => default.withEndpoint cs
  | some (endpoint, db) =>
    { default with database := (Numeral.uint32 (String.ofList db)).toOption }.withEndpoint endpoint

/-! ## Sentinel mode -/

def withSentinel (config : Config) (master : String) (sentinels : List Endpoint) : Config :=
  { config with masterName := some master, sentinels := sentinels }

def addSentinel (config : Config) (address : String) : Except Error Config :=
  (Endpoint.ofAddress address).map fun e => { config with sentinels := config.sentinels ++ [e] }

def master (config : Config) : String := config.masterName.getD ""

/-- a master has a name that is not empty -/
def sentinelMode (config : Config) : Bool := config.master ≠ ""

def validate (config : Config) : Except Error Unit :=
  if config.sentinelMode then
    if config.sentinels.isEmpty then
      .error (.config "Sentinel mode requires at least one sentinel")
    else .ok ()
  else if config.host = "" then .error (.config "No host specified")
  else if config.port = 0 then .error (.config "Port must be non-zero")
  else .ok ()

end Config
end RespLink
