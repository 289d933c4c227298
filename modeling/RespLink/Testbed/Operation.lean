import RespLink.Client.Call

/-!
# Operations

An `Operation` is something that a caller waits for.  It may need the results of several links; its
outcome is the first failure among them, else the last result.
-/

namespace RespLink
namespace Testbed

/-- the form in which an outcome is handed over -/
inductive Wanted where
  | value
  | form (answer : Value → Except Error Answer)
  /-- done is done, whatever came of it -/
  | acknowledgement

structure Operation where
  wanted : Wanted
  /-- the stations whose results it waits for -/
  awaits : List Nat
  results : List (Nat × Except Error Value)
  /-- nobody waits any longer -/
  cancelled : Bool

namespace Operation

def result? (o : Operation) (station : Nat) : Option (Except Error Value) :=
  (o.results.find? fun (s, _) => s = station).map Prod.snd

def ready (o : Operation) : Bool := o.awaits.all fun station => (o.result? station).isSome

def outcome (o : Operation) : Except Error Value :=
  (o.awaits.filterMap o.result?).foldl Client.joined (.ok .nil)

def answer (o : Operation) : Except Error Answer :=
  match o.wanted with
  | .value => o.outcome.map .value
  | .form answer => o.outcome.bind answer
  | .acknowledgement => .ok .done

end Operation
end Testbed
end RespLink
