import RespLink.Sentinel.Inquiry
import RespLink.Sentinel.Order

/-!
# Finding a master through Sentinels

A `Walk` asks the Sentinels in order.  The address that one reports is dialled at once; a Sentinel
that gives no address, or one that cannot be reached, is passed over.  The walk ends with the first
stream, or when every Sentinel was asked.

* `asking`      the inquiry to Sentinel `index`, and the Sentinels after it;
* `calling`     dialling the address that Sentinel `index` reported;
* `reached`     the stream, and the index of the Sentinel that led to it;
* `exhausted`   no Sentinel led anywhere.
-/

namespace RespLink

inductive Walk where
  | asking (index : Nat) (inquiry : Inquiry) (rest : Sentinels)
  | calling (index : Nat) (rest : Sentinels)
  | reached (socket : Socket) (index : Nat)
  | exhausted

namespace Walk

/-- asks the first of the Sentinels, whose index is `index` -/
def ask (config : Config) (index : Nat) : Sentinels → Walk × List Action
  | [] => (exhausted, [])
  | sentinel :: rest =>
    let (inquiry, actions) := Inquiry.start sentinel config.master config.sentinelTimeout
    (asking index inquiry rest, actions)

def start (config : Config) (sentinels : Sentinels) : Walk × List Action := ask config 0 sentinels

/-- goes on from an inquiry -/
def proceed (config : Config) (index : Nat) (rest : Sentinels) :
    Inquiry → Walk × List Action
  | .done (.ok master) => (calling index rest, [.limit config.connectTimeout, .dial master])
  | .done (.error _) => ask config (index + 1) rest
  | inquiry => (asking index inquiry rest, [])

def step (config : Config) : Walk → Signal → Walk × List Action
  | asking index inquiry rest, signal =>
    let (inquiry, actions) := inquiry.step signal
    let (walk, more) := proceed config index rest inquiry
    (walk, actions ++ more)
  | calling index _, .connected socket => (reached socket index, [])
  | calling index rest, .refused _ => ask config (index + 1) rest
  | calling index rest, .elapsed => ask config (index + 1) rest
  | walk, _ => (walk, [])

end Walk
end RespLink
