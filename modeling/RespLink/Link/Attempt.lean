import RespLink.Link.Step
import RespLink.Sentinel.Walk

/-!
# Connect attempts

An `Attempt` gets a socket for a link: straight from the configured server, or through the
Sentinels.  Its `Outcome` becomes an event of the link, tagged with the epoch it was started for.
-/

namespace RespLink

inductive Outcome where
  | attached (socket : Socket) (sentinel? : Option Nat)
  | failed (err : Error) (retry : Bool)
deriving DecidableEq, Repr

def Outcome.event (epoch : Nat) : Outcome → Event
  | attached socket sentinel? => .attached epoch socket sentinel?
  | failed err retry => .connectFailed epoch err retry

inductive Attempt where
  | straight (server : Endpoint)
  | through (walk : Walk)
  | ended (outcome : Outcome)

namespace Attempt

/-- an attempt through the Sentinels ends when the walk does -/
def ofWalk : Walk → Attempt
  | .reached socket index => ended (.attached socket (some index))
  | .exhausted => ended (.failed (.sentinel "failed to connect sentinels") true)
  | walk => through walk

def start (config : Config) : Option Sentinels → Attempt × List Action
  | some sentinels =>
    let (walk, actions) := Walk.start config sentinels
    (ofWalk walk, actions)
  | none =>
    let server : Endpoint := ⟨config.host, config.port⟩
    (straight server, [.limit config.connectTimeout, .dial server])

def step (config : Config) : Attempt → Signal → Attempt × List Action
  | straight _, .connected socket => (ended (.attached socket none), [])
  | straight server, .refused cause => (ended (.failed (unreachable server cause) false), [])
  | straight _, .elapsed => (ended (.failed .timeout false), [])
  | through walk, signal =>
    let (walk, actions) := walk.step config signal
    (ofWalk walk, actions)
  | attempt, _ => (attempt, [])

end Attempt
end RespLink
