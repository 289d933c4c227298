import RespLink.Link
import RespLink.PubSub.Announcement

/-!
# Clients

A `Client` has one link for commands and one for subscriptions, so that no subscription ever blocks
a command.

* `Client.commands`  the commands that a request becomes, each with the link it goes to: a request
                     about subscriptions goes to the link for them, `QUIT` to both links, all else
                     to the link for commands;
* `Client.joined`    the one result of a request that went to both.

The messages of a subscription are announced at the client's address, a point, and the key.
-/

namespace RespLink

structure Client where
  config : Config
  command : Link
  pubsub : Link
deriving DecidableEq, Repr

namespace Client

def start (config : Config) : Except Error Client :=
  config.validate.map fun _ => ⟨config, Link.start .command config, Link.start .pubsub config⟩

/-! ## routing -/

/-- the names that a request gives to channels or patterns -/
def keys (config : Config) (r : Request) : List String := r.args.map (Arg.toText config.encoding)

/-- every key with the address that its messages are announced at -/
def mailboxes (config : Config) (r : Request) : List (String × Mailbox) :=
  (keys config r).map fun key => (key, deliveryAddress config.address key)

/-- what a request changes about subscriptions -/
def change? (config : Config) (r : Request) : Option Change :=
  if r.verb = "SUBSCRIBE" then some (.subscribe .channel (mailboxes config r))
  else if r.verb = "PSUBSCRIBE" then some (.subscribe .pattern (mailboxes config r))
  else if r.verb = "UNSUBSCRIBE" then some (.unsubscribe .channel (keys config r))
  else if r.verb = "PUNSUBSCRIBE" then some (.unsubscribe .pattern (keys config r))
  else none

def commands (config : Config) (t : Ticket) (r : Request) : List (Role × Command) :=
  let command := Command.ofRequest t r config.encoding
  match change? config r with
  | some change => [(.pubsub, command.changing change)]
  | none =>
    if command.isQuit then [(.command, command), (.pubsub, command)] else [(.command, command)]

/-- the failure on the link for commands if there is one, else the result on the other link -/
def joined {α β : Type} (command : Except Error α) (pubsub : Except Error β) : Except Error β :=
  match command with
  | .error err => .error err
  | .ok _ => pubsub

/-! ## text in messages -/

def quoted (c : Client) : String :=
  "Client \x7b redis: " ++ c.command.quoted ++ ", pubsub: " ++ c.pubsub.quoted ++ ", .. \x7d"

end Client
end RespLink
