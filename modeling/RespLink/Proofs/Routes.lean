import RespLink.Proofs.Futures
import RespLink.Proofs.Pipelines
import RespLink.Proofs.WireOrder

/-!
# Routes

A client has two links, each with an inbox.  What its user calls goes into the inboxes at once; what
the network does goes there too; and each link deals with its inbox whenever it likes.

* `Role.takes`       which requests go to a link of this role, and `part_posting` that they do;
* `Demand`, `Deed`   what is called, and what happens, in any order;
* `Desk`             a client with its callers, and what each link has dealt with;
* `Routed`           where everything is; every deed keeps it (`Routed.next`), so every run does;
* `Routed.order`     the calls of a link go out in their order;
* `Routed.answer_iff`   when `QUIT` is answered, and with what;
* `calls_routed`     all of it, for every run of a client.
-/

namespace RespLink

/-! ## which link takes what -/

/-- the verbs about subscriptions -/
def subscribing : List String := ["SUBSCRIBE", "PSUBSCRIBE", "UNSUBSCRIBE", "PUNSUBSCRIBE"]

/-- `QUIT` is for both -/
def Role.takes (role : Role) (r : Request) : Bool :=
  match role with
  | command => r.verb ∉ subscribing
  | pubsub => r.verb ∈ subscribing ∨ r.verb = "QUIT"

theorem Role.takes_command {r : Request} : command.takes r = true ↔ r.verb ∉ subscribing :=
  decide_eq_true_iff

theorem Role.takes_pubsub {r : Request} :
    pubsub.takes r = true ↔ r.verb ∈ subscribing ∨ r.verb = "QUIT" :=
  decide_eq_true_iff

/-- what is to be seen of a command: who waits for it, and its frame -/
def Command.posting (c : Command) : Ticket × Bytes := (c.ticket, c.frame)

/-- a frame of a command, with who waits for it -/
def Effect.posting? : Effect → Option (Ticket × Bytes)
  | wrote _ (.command c) frame => some (c.ticket, frame)
  | _ => none

namespace Transform

theorem toUpper_toUpper (c : Char) : c.toUpper.toUpper = c.toUpper := by
  by_cases lower : c.val ≥ 'a'.val ∧ c.val ≤ 'z'.val
  · have raised : c.toUpper = ⟨c.val + ('A'.val - 'a'.val), _⟩ := dif_pos lower
    have upper : c.toUpper.val = c.val + ('A'.val - 'a'.val) := by rw [raised]
    have none : ¬ (c.toUpper.val ≥ 'a'.val ∧ c.toUpper.val ≤ 'z'.val) := by
      rw [upper]
      simp only [ge_iff_le, UInt32.le_iff_toNat_le, UInt32.toNat_add, UInt32.toNat_sub] at lower ⊢
      have a : 'a'.val.toNat = 97 := rfl
      have z : 'z'.val.toNat = 122 := rfl
      have A : 'A'.val.toNat = 65 := rfl
      omega
    exact dif_neg none
  · have same : c.toUpper = c := dif_neg lower
    rw [same, same]

theorem upperAscii_upperAscii (s : String) : upperAscii (upperAscii s) = upperAscii s := by
  rw [upperAscii, upperAscii, String.toList_ofList, List.map_map]
  exact congrArg String.ofList (List.map_congr_left fun c _ => toUpper_toUpper c)

end Transform

namespace Client

/-- the commands that a request puts on the link of a role -/
def part (config : Config) (role : Role) (t : Ticket) (r : Request) : List Command :=
  (commands config t r).filterMap fun q => if q.1 = role then some q.2 else none

section
variable {config : Config} {role : Role} {t : Ticket} {r : Request} {c : Command}

theorem change?_eq_none_iff : change? config r = none ↔ r.verb ∉ subscribing := by
  simp only [change?, subscribing, List.mem_cons, List.not_mem_nil, or_false, not_or]
  split
  · next same => simp [same]
  split
  · next same => simp [same]
  split
  · next same => simp [same]
  split
  · next same => simp [same]
  · next a b c d => simp [a, b, c, d]

/-- a link gets one command of what it takes, and nothing of the rest -/
theorem part_posting (config : Config) (role : Role) (t : Ticket) (r : Request) :
    (part config role t r).map Command.posting =
      if role.takes r then [(t, (r.wording config.encoding).frame)] else [] := by
  rw [part, commands]
  by_cases among : r.verb ∈ subscribing
  · cases found : change? config r with
    | none => exact absurd among (change?_eq_none_iff.mp found)
    | some change =>
      cases role with
      | command =>
        rw [if_neg fun takes => Role.takes_command.mp takes among]
        rfl
      | pubsub =>
        rw [if_pos (Role.takes_pubsub.mpr (.inl among))]
        rfl
  rw [change?_eq_none_iff.mpr among]
  dsimp only
  by_cases quits : r.verb = "QUIT"
  · rw [if_pos (show (Command.ofRequest t r config.encoding).isQuit = true from
      decide_eq_true quits)]
    cases role with
    | command =>
      rw [if_pos (Role.takes_command.mpr among)]
      rfl
    | pubsub =>
      rw [if_pos (Role.takes_pubsub.mpr (.inr quits))]
      rfl
  · rw [if_neg (show ¬ (Command.ofRequest t r config.encoding).isQuit = true from
      fun isQuit => quits (of_decide_eq_true isQuit))]
    cases role with
    | command =>
      rw [if_pos (Role.takes_command.mpr among)]
      rfl
    | pubsub =>
      rw [if_neg fun takes => (Role.takes_pubsub.mp takes).elim among quits]
      rfl

/-- `QUIT` goes to both links, to the one for commands first -/
theorem commands_of_quit (t : Ticket) (quits : r.verb = "QUIT") :
    commands config t r = [(.command, Command.ofRequest t r config.encoding),
      (.pubsub, Command.ofRequest t r config.encoding)] := by
  have none : change? config r = none := change?_eq_none_iff.mpr (by rw [quits]; decide)
  rw [commands, none]
  exact if_pos (show (Command.ofRequest t r config.encoding).isQuit = true from
    decide_eq_true quits)

theorem commands_ne_nil (t : Ticket) (r : Request) : commands config t r ≠ [] := by
  rw [commands]
  split
  · exact List.cons_ne_nil _ _
  · split <;> exact List.cons_ne_nil _ _

end
end Client

/-! ## one link -/

namespace Config
variable {config : Config}

/-- the verbs of the handshake -/
def greetingVerbs : List String := ["AUTH", "ROLE", "SELECT"]

theorem verb_of_greeting {sentinel? : Option Nat} {step : Handshake × Bytes}
    (h : step ∈ config.greeting sentinel?) :
    ∃ w : Wording, step.2 = w.frame ∧ w.verb ∈ greetingVerbs := by
  rcases List.mem_append.mp h with auth | rest
  · obtain ⟨password, _, rfl⟩ := List.mem_map.mp auth
    exact ⟨⟨"AUTH", _⟩, rfl, by simp [greetingVerbs]⟩
  rcases List.mem_append.mp rest with role | select
  · obtain ⟨i, _, rfl⟩ := List.mem_map.mp role
    exact ⟨⟨"ROLE", _⟩, rfl, by simp [greetingVerbs]⟩
  · obtain ⟨db, _, rfl⟩ := List.mem_map.mp select
    exact ⟨⟨"SELECT", _⟩, rfl, by simp [greetingVerbs]⟩

end Config

/-- a handshake says nothing but its steps -/
theorem Gate.step_of_sent {steps : List (Handshake × Bytes)} {xs : List Exchange}
    (h : Gate steps xs) {asked : Handshake} {frame : Bytes}
    (sent : .sent (.handshake asked) frame ∈ xs) : (asked, frame) ∈ steps := by
  obtain ⟨done, todo, tail, rfl, _, rfl, rest⟩ := h
  rcases List.mem_append.mp sent with early | late
  · obtain ⟨d, inside, here⟩ := List.mem_flatMap.mp early
    simp only [List.mem_cons, Exchange.sent.injEq, Waiter.handshake.injEq, reduceCtorEq,
      List.not_mem_nil, or_false] at here
    obtain ⟨rfl, rfl⟩ := here
    exact List.mem_append_left _ (List.mem_map_of_mem inside)
  · cases rest with
    | talk talk => cases talk _ late
    | silent silent => cases silent _ late
    | asked silent =>
      rcases List.mem_cons.mp late with first | later
      · cases first
        exact List.mem_append_right _ List.mem_cons_self
      · cases silent _ later

namespace Link

section
variable (role : Role) (config : Config) (events : List Event)

theorem verb_of_handshake {socket : Nat} {asked : Handshake} {frame : Bytes}
    (written : .wrote socket (.handshake asked) frame ∈ (run events (start role config)).effects) :
    ∃ w : Wording, frame = w.frame ∧ w.verb ∈ Config.greetingVerbs := by
  obtain ⟨x, hx, inside⟩ := Sittings.exists_mem_of written rfl
  obtain ⟨_, guarded⟩ := guarded_of_run role config events hx
  have sent : .sent (.handshake asked) frame ∈ x.exchanges :=
    List.mem_filterMap.mpr ⟨_, inside, rfl⟩
  have gated := guarded.stands.gated
  rw [Gated] at gated
  split at gated
  · cases gated _ sent
  · exact Config.verb_of_greeting (gated.step_of_sent sent)

/-- commands go out in the order in which they came, each in its frame -/
theorem posting_of_run :
    ((run events (start role config)).effects.filterMap Effect.posting?).Sublist
      ((events.filterMap (Event.command? config.encoding)).map Command.posting) := by
  have order := (posted_of_run role config events).map fun p => (p.1.ticket, p.2)
  rw [List.map_filterMap, List.map_map] at order
  have same : (fun e : Effect => e.posted?.map fun p => (p.1.ticket, p.2)) = Effect.posting? := by
    funext e
    cases e with
    | wrote socket w frame => cases w <;> rfl
    | _ => rfl
  rw [same] at order
  exact order

/-- a result goes to somebody who submitted a command -/
theorem ticket_of_result {t : Ticket} {result : Except Error Value}
    (reported : result ∈ resultsOf t (run events (start role config)).effects) :
    t ∈ (events.filterMap (Event.command? config.encoding)).map Command.ticket := by
  obtain ⟨ins, ⟨moves, _⟩, entered⟩ := run_leads (settled_start role config) events
  have each := moves.conserves.tickets
  rw [map_ticket_of_map_bare (bare_of_enters entered)] at each
  refine each.subset (List.mem_append_left _ ?_)
  rw [filterMap_ended?]
  exact List.mem_map_of_mem (mem_under.mp reported)

/-- and to nobody twice -/
theorem result_unique {t : Ticket} {a b : Except Error Value}
    (distinct : ((events.filterMap (Event.command? config.encoding)).map Command.ticket).Nodup)
    (one : a ∈ resultsOf t (run events (start role config)).effects)
    (two : b ∈ resultsOf t (run events (start role config)).effects) : a = b := by
  have once := ended_of_run role config events distinct
  obtain ⟨x, hx, first⟩ := List.mem_filterMap.mp (mem_under.mp one)
  obtain ⟨y, hy, second⟩ := List.mem_filterMap.mp (mem_under.mp two)
  have ended {e : Effect} {r : Except Error Value} (h : e.result? = some (t, r)) :
      e.ended? = some t := by
    rw [e.ended?_eq, h]
    rfl
  obtain rfl := eq_of_ended once hx hy (ended first) (ended second)
  rw [first] at second
  cases second
  rfl

end
end Link

namespace Testbed

/-! ## a client at work -/

/-- a request of the user, and the form in which its result is wanted -/
structure Demand where
  wanted : Wanted
  request : Request
  upper : Transform.upperAscii request.verb = request.verb

namespace Demand

/-- any request, with its verb in any letter case -/
def ofVerb (wanted : Wanted) (verb : String) (args : List Arg) (shape : Shape) (binary : Bool) :
    Demand :=
  ⟨wanted, { Request.ofVerb verb with
      args, shape, binary }, Transform.upperAscii_upperAscii verb⟩

def ofCall (c : Call) : Demand :=
  ⟨.form c.answer, c.request, by cases c <;> exact Transform.upperAscii_upperAscii _⟩

/-- what is to be seen of a call with its ticket -/
def posting (e : Encoding) (p : Demand × Ticket) : Ticket × Bytes :=
  (p.2, (p.1.request.wording e).frame)

end Demand

/-- the calls, numbered as they come, that are for a link -/
def taken (role : Role) (calls : List Demand) : List (Demand × Ticket) :=
  calls.zipIdx.filter fun p => role.takes p.1.request

/-- what happens to a client -/
inductive Deed where
  | call (demand : Demand)
  /-- both links are to part from their servers -/
  | close
  /-- a connect attempt, a socket or a timer reports to a link, or it hears that the last handle is
  gone: nobody but a client submits commands -/
  | report (role : Role) (e : Event) (news : e.command? .utf8 = none)
  /-- a link deals with all that has reached it -/
  | serve (role : Role)

namespace Deed

/-- the call of `QUIT` whose result is of no interest -/
def parting : Demand := ⟨.acknowledgement, Link.quit, by decide +kernel⟩

def demand? : Deed → Option Demand
  | call demand => some demand
  | close => some parting
  | _ => none

end Deed

/-- a client in its session, and the events that each link has dealt with -/
structure Desk where
  session : Session
  dealt : Role → List Event

namespace Desk

def inbox (d : Desk) (role : Role) : List Event := d.session.world.inbox (Session.station role)

def next (d : Desk) : Deed → Desk
  | .call demand => { d with session := (d.session.request demand.wanted demand.request).1 }
  | .close => { d with session := d.session.disconnect.1 }
  | .report role e _ =>
    { d with session :=
        { d.session with world := d.session.world.post (Session.station role) e } }
  | .serve role =>
    ⟨{ d.session with world := d.session.world.serve (Session.station role) },
      fun k => if k = role then d.dealt k ++ d.inbox k else d.dealt k⟩

def run (d : Desk) (deeds : List Deed) : Desk := deeds.foldl next d

/-- the life of a link so far -/
def turn (d : Desk) (role : Role) : Turn :=
  Link.run (d.dealt role) (Link.start role d.session.config)

def effects (d : Desk) (role : Role) : List Effect := (d.turn role).effects

/-- the commands that a link was handed, those in its inbox included -/
def handed (d : Desk) (role : Role) : List Command :=
  (d.dealt role ++ d.inbox role).filterMap (Event.command? d.session.config.encoding)

/-- each call is in the inboxes, or dealt with, and waited for -/
structure Routed (calls : List Demand) (d : Desk) : Prop where
  subject : d.session.subject = .client
  two : d.session.world.stations.length = 2
  links : ∀ role, d.session.world.link? (Session.station role) = some (d.turn role).link
  handed : ∀ role, d.handed role =
    calls.zipIdx.flatMap fun p => Client.part d.session.config role p.2 p.1.request
  asked : d.session.world.asked = calls.zipIdx.map fun p =>
    (p.1.wanted, (Client.commands d.session.config p.2 p.1.request).map
      fun q => Session.station q.1)
  tallied : d.session.world.Tallied d.effects

section
variable {d : Desk} {calls : List Demand} {s : Session}

theorem routed_start {config : Config} {modes : Fields Mode} {master : String}
    (opens : Session.start .client config modes master = .ok s) :
    s.config = config ∧ Routed [] ⟨s, fun _ => []⟩ := by
  have same : s = .ofLinks .client config modes
      [Link.start .command config, Link.start .pubsub config] := by
    rw [Session.start, Client.start] at opens
    cases valid : config.validate with
    | error err =>
      rw [valid] at opens
      cases opens
    | ok =>
      rw [valid] at opens
      cases opens
      rfl
  subst same
  refine ⟨rfl, rfl, rfl, fun role => ?_, fun role => ?_, rfl, ?_⟩
  · cases role <;> rfl
  · cases role <;> rfl
  · exact ⟨fun n o there => (nomatch there), fun p answered => (nomatch answered)⟩

/-- a link is handed the calls that it takes, in their order -/
theorem Routed.posting (h : d.Routed calls) (role : Role) :
    (d.handed role).map Command.posting =
      (taken role calls).map (Demand.posting d.session.config.encoding) := by
  have each (l : List (Demand × Nat)) :
      (l.flatMap fun p => Client.part d.session.config role p.2 p.1.request).map Command.posting =
        (l.filter fun p => role.takes p.1.request).map
          (Demand.posting d.session.config.encoding) := by
    induction l with
    | nil => rfl
    | cons p l ih =>
      rw [List.flatMap_cons, List.map_append, ih, Client.part_posting, List.filter_cons]
      split <;> rfl
  rw [h.handed role]
  exact each calls.zipIdx

/-- each call has its ticket -/
theorem Routed.tickets (h : d.Routed calls) (role : Role) :
    ((d.handed role).map Command.ticket).Sublist (List.range' 0 calls.length) := by
  have all := congrArg (List.map Prod.fst) (h.posting role)
  rw [List.map_map, List.map_map] at all
  rw [← List.zipIdx_map_snd 0 calls]
  exact (show (d.handed role).map Command.ticket = _ from all) ▸ List.filter_sublist.map _

theorem dealt_sublist (d : Desk) (role : Role) :
    ((d.dealt role).filterMap (Event.command? d.session.config.encoding)).Sublist
      (d.handed role) := by
  rw [handed, List.filterMap_append]
  exact List.sublist_append_left _ _

/-- nobody hears of a call that is still to come -/
theorem Routed.unheard (h : d.Routed calls) (role : Role) :
    resultsOf calls.length (d.effects role) = [] := by
  rw [List.eq_nil_iff_forall_not_mem]
  intro result reported
  have submitted := Link.ticket_of_result role d.session.config (d.dealt role) reported
  have handed := ((d.dealt_sublist role).map Command.ticket).trans (h.tickets role)
  have among := handed.subset submitted
  have bound := (List.mem_range'_1.mp among).2
  omega

theorem operate_eq (s : Session) (wanted : Wanted) (parts : Nat → List (Nat × Event)) :
    (s.operate wanted parts).1 =
      { s with
        world := World.postAll (parts s.world.operations.length)
          (s.world.enter wanted ((parts s.world.operations.length).map Prod.fst)).1 } := rfl

/-- a list of events, each for a link, and somebody who waits for these links -/
theorem Routed.operate (h : d.Routed calls) (demand : Demand)
    {parts : Nat → List (Nat × Event)} (own : ∀ role,
      (under (Session.station role) (parts calls.length)).filterMap
          (Event.command? d.session.config.encoding) =
        Client.part d.session.config role calls.length demand.request)
    (awaited : (parts calls.length).map Prod.fst =
      (Client.commands d.session.config calls.length demand.request).map
        fun q => Session.station q.1) :
    Routed (calls ++ [demand])
      { d with session := (d.session.operate demand.wanted parts).1 } := by
  have number : d.session.world.operations.length = calls.length := by
    have lengths := congrArg List.length h.asked
    rw [World.asked, List.length_map, List.length_map, List.length_zipIdx] at lengths
    exact lengths
  rw [← number] at own awaited
  rw [operate_eq]
  generalize parts d.session.world.operations.length = events at own awaited ⊢
  have last : (calls ++ [demand]).zipIdx = calls.zipIdx ++ [(demand, calls.length)] := by
    rw [List.zipIdx_append, Nat.zero_add, List.zipIdx_singleton]
  have here : ∀ p ∈ events,
      ((d.session.world.enter demand.wanted (events.map Prod.fst)).1.link? p.1).isSome = true := by
    intro p inside
    have station := List.mem_map_of_mem (f := Prod.fst) inside
    rw [awaited] at station
    obtain ⟨q, _, same⟩ := List.mem_map.mp station
    have link := h.links q.1
    rw [same] at link
    exact Option.isSome_iff_exists.mpr ⟨_, link⟩
  have waited : events.map Prod.fst ≠ [] := by
    rw [awaited]
    exact fun none => Client.commands_ne_nil _ _ (List.map_eq_nil_iff.mp none)
  have entered := h.tallied.enter demand.wanted waited fun role => by
    rw [number]
    exact h.unheard role
  refine ⟨h.subject, (World.length_postAll _ _).trans h.two, fun role => ?_, fun role => ?_, ?_, ?_⟩
  · exact (World.link?_postAll _ _ _).trans (h.links role)
  · have grown := congrArg (fun inbox => (d.dealt role ++ inbox).filterMap
      (Event.command? d.session.config.encoding)) (World.inbox_postAll here (Session.station role))
    refine grown.trans ?_
    dsimp only
    rw [← List.append_assoc, List.filterMap_append, own role, last, List.flatMap_append,
      List.flatMap_singleton, ← h.handed role, number]
    rfl
  · have grown := congrArg (List.map fun o : Operation => (o.wanted, o.awaits))
      (World.operations_postAll events
        (d.session.world.enter demand.wanted (events.map Prod.fst)).1)
    refine grown.trans ?_
    rw [last, List.map_append, ← h.asked]
    refine (List.map_append (f := fun o : Operation => (o.wanted, o.awaits))).trans ?_
    rw [List.map_singleton, List.map_singleton, awaited, number]
    rfl
  · exact entered.of_same (World.operations_postAll _ _)
      (congrArg Tally.completed (World.tally_postAll _ _))

theorem disconnect_eq (h : d.Routed calls) :
    d.session.disconnect = d.session.operate .acknowledgement fun n =>
      [(0, .disconnect n), (1, .disconnect n)] := by
  rw [Session.disconnect, h.subject, h.two]
  rfl

theorem command?_eq_none {e : Event} (h : e.command? .utf8 = none) (enc : Encoding) :
    e.command? enc = none := by
  cases e <;> first | rfl | cases h

theorem turn_serve (d : Desk) (role k : Role) :
    (d.next (.serve role)).turn k =
      if k = role then (d.turn k).andThen (Link.run (d.inbox k)) else d.turn k := by
  show Link.run (if k = role then _ else _) _ = _
  split
  · exact Link.run_append _ _ _
  · rfl

theorem Routed.serve (h : d.Routed calls) (role : Role) : (d.next (.serve role)).Routed calls := by
  have held := h.links role
  refine ⟨h.subject, ?_, fun k => ?_, fun k => ?_, ?_, ?_⟩
  · show (d.session.world.serve _).stations.length = 2
    rw [World.stations_serve held, List.length_set]
    exact h.two
  · refine (World.link?_serve held _).trans ?_
    rw [turn_serve]
    by_cases mine : k = role
    · subst mine
      rw [if_pos rfl, if_pos rfl]
      rfl
    · rw [if_neg fun same => mine (Operation.station_inj same).symm, if_neg mine]
      exact h.links k
  · refine Eq.trans (congrArg (List.filterMap _) ?_) (h.handed k)
    show (if k = role then _ else _) ++ (d.session.world.serve _).inbox _ = _
    rw [World.inbox_serve held]
    by_cases mine : k = role
    · subst mine
      rw [if_pos rfl, if_pos rfl, List.append_nil]
    · rw [if_neg mine, if_neg fun same => mine (Operation.station_inj same).symm]
      rfl
  · exact (World.asked_serve held).trans h.asked
  · have told := h.tallied.serve held
    have same : (d.next (.serve role)).effects =
        World.also d.effects role (Link.run (d.inbox role) (d.turn role).link).effects := by
      funext k
      rw [effects, turn_serve, World.also]
      split
      · next mine =>
        subst mine
        rfl
      · rfl
    rw [same]
    exact told

/-- a link takes of a call what the request puts on it -/
theorem Routed.call (h : d.Routed calls) (demand : Demand) :
    (d.next (.call demand)).Routed (calls ++ [demand]) := by
  refine h.operate demand (fun role => ?_) ?_
  · rw [Client.part, under, List.filterMap_map, List.filterMap_filterMap]
    refine List.filterMap_congr fun q _ => ?_
    show (if Session.station q.1 = Session.station role
      then some (Event.send q.2) else none).bind _ = _
    by_cases mine : q.1 = role
    · rw [if_pos mine, if_pos (congrArg _ mine)]
      rfl
    · rw [if_neg mine, if_neg fun same => mine (Operation.station_inj same)]
      rfl
  · rw [List.map_map]
    rfl

/-- to part from both servers is a `QUIT` to both -/
theorem Routed.close (h : d.Routed calls) : (d.next .close).Routed (calls ++ [Deed.parting]) := by
  have closed : d.next .close = { d with session := (d.session.operate .acknowledgement fun n =>
      [(0, .disconnect n), (1, .disconnect n)]).1 } := by
    rw [← disconnect_eq h]
    rfl
  have both : Client.commands d.session.config calls.length Link.quit = _ :=
    Client.commands_of_quit calls.length (by decide)
  rw [closed]
  refine h.operate Deed.parting (fun role => ?_) ?_
  · show _ = Client.part d.session.config role calls.length Link.quit
    rw [Client.part, both]
    cases role <;> rfl
  · show _ = (Client.commands d.session.config calls.length Link.quit).map _
    rw [both]
    rfl

/-- what is no command is on no list -/
theorem Routed.report (h : d.Routed calls) (role : Role) (e : Event)
    (news : e.command? .utf8 = none) : (d.next (.report role e news)).Routed calls := by
  have here : (d.session.world.link? (Session.station role)).isSome = true := by
    rw [h.links role]
    rfl
  refine ⟨h.subject, (World.length_post _ _ _).trans h.two, fun k => ?_, fun k => ?_, ?_, ?_⟩
  · exact (World.link?_post _ _ _ _).trans (h.links k)
  · refine (congrArg (fun inbox => (d.dealt k ++ inbox).filterMap
      (Event.command? d.session.config.encoding)) (World.inbox_post here _)).trans
        (Eq.trans ?_ (h.handed k))
    rw [← List.append_assoc, List.filterMap_append]
    split
    · rw [List.filterMap_cons_none (command?_eq_none news _)]
      exact List.append_nil _
    · exact List.append_nil _
  · exact (congrArg (List.map _) (World.operations_post _ _ _)).trans h.asked
  · exact h.tallied.of_same (World.operations_post _ _ _)
      (congrArg Tally.completed (World.tally_post _ _ _))

/-- **Every deed keeps the calls on their way.** -/
theorem Routed.next (h : d.Routed calls) (deed : Deed) :
    (d.next deed).Routed (calls ++ deed.demand?.toList) ∧
      (d.next deed).session.config = d.session.config := by
  cases deed with
  | call demand => exact ⟨h.call demand, rfl⟩
  | close =>
    refine ⟨h.close, ?_⟩
    show d.session.disconnect.1.config = _
    rw [disconnect_eq h]
    rfl
  | report role e news =>
    rw [show (Deed.report role e news).demand?.toList = [] from rfl, List.append_nil]
    exact ⟨h.report role e news, rfl⟩
  | serve role =>
    rw [show (Deed.serve role).demand?.toList = [] from rfl, List.append_nil]
    exact ⟨h.serve role, rfl⟩

theorem Routed.run (h : d.Routed calls) (deeds : List Deed) :
    (d.run deeds).Routed (calls ++ deeds.filterMap Deed.demand?) ∧
      (d.run deeds).session.config = d.session.config := by
  induction deeds generalizing d calls with
  | nil =>
    rw [List.filterMap_nil, List.append_nil]
    exact ⟨h, rfl⟩
  | cons deed rest ih =>
    obtain ⟨next, same⟩ := h.next deed
    obtain ⟨routed, config⟩ := ih next
    refine ⟨?_, config.trans same⟩
    have calls' : deed.demand?.toList ++ rest.filterMap Deed.demand? =
        (deed :: rest).filterMap Deed.demand? := by
      rw [List.filterMap_cons]
      cases deed.demand? <;> rfl
    rw [List.append_assoc, calls'] at routed
    exact routed

/-! ## what follows -/

/-- commands go out in the order of the calls -/
theorem Routed.order (h : d.Routed calls) (role : Role) :
    ((d.effects role).filterMap Effect.posting?).Sublist
      ((taken role calls).map (Demand.posting d.session.config.encoding)) := by
  rw [← h.posting role]
  exact (Link.posting_of_run role d.session.config (d.dealt role)).trans
    ((d.dealt_sublist role).map _)

/-- what the link for commands writes is no word about subscriptions -/
theorem Routed.verb_of_command (h : d.Routed calls)
    {socket : Nat} {w : Waiter} {verb : String} {args : List Bytes}
    (written : .wrote socket w (encodeCommand verb args) ∈ d.effects .command) :
    Transform.upperAscii verb ∉ subscribing := by
  have only {v : Wording} (framed : encodeCommand verb args = v.frame) : verb = v.verb := by
    have same : (⟨verb, args⟩ : Wording).frame ++ [] = v.frame ++ [] := congrArg (· ++ []) framed
    rw [← (Wording.frame_append_inj same).1]
  cases w with
  | handshake asked =>
    obtain ⟨v, framed, greets⟩ :=
      Link.verb_of_handshake .command d.session.config (d.dealt .command) written
    rw [only framed]
    have others : ∀ verb ∈ Config.greetingVerbs, Transform.upperAscii verb ∉ subscribing := by
      decide
    exact others v.verb greets
  | command c =>
    have posted := (h.order .command).subset (List.mem_filterMap.mpr ⟨_, written, rfl⟩)
    obtain ⟨p, inside, same⟩ := List.mem_map.mp posted
    obtain ⟨_, takes⟩ := List.mem_filter.mp inside
    rw [only (Prod.mk.inj same).2.symm]
    show Transform.upperAscii p.1.request.verb ∉ subscribing
    rw [p.1.upper]
    exact Role.takes_command.mp takes

/-- who calls `QUIT` waits for both links -/
theorem Routed.operation_of_quit (h : d.Routed calls) {demand : Demand} {t : Ticket}
    (called : calls[t]? = some demand) (quits : demand.request.verb = "QUIT") :
    ∃ o, d.session.world.operations[t]? = some o ∧ o.wanted = demand.wanted ∧
      o.awaits = [0, 1] := by
  have asked := congrArg (fun all => all[t]?) h.asked
  rw [World.asked, List.getElem?_map, List.getElem?_map, List.getElem?_zipIdx, called,
    Option.map_some, Option.map_some, Nat.zero_add] at asked
  obtain ⟨o, found, same⟩ := Option.map_eq_some_iff.mp asked
  rw [Client.commands_of_quit t quits] at same
  exact ⟨o, found, (Prod.mk.inj same).1, (Prod.mk.inj same).2⟩

/-- an operation holds of a link what that reported, which is one result at most -/
theorem Routed.result?_eq_some_iff (h : d.Routed calls) {t : Ticket} {o : Operation}
    (found : d.session.world.operations[t]? = some o) (role : Role) (result : Except Error Value) :
    o.result? (Session.station role) = some result ↔ result ∈ resultsOf t (d.effects role) := by
  rw [o.result?_eq, (h.tallied.each t o found).kept role]
  refine ⟨List.mem_of_head?, fun inside => ?_⟩
  cases all : resultsOf t (d.effects role) with
  | nil =>
    rw [all] at inside
    cases inside
  | cons first rest =>
    have distinct := (((d.dealt_sublist role).map Command.ticket).trans (h.tickets role)).nodup
      (List.nodup_range' 1)
    have head : first ∈ resultsOf t (d.effects role) := by
      rw [all]
      exact List.mem_cons_self
    exact congrArg some
      (Link.result_unique role d.session.config (d.dealt role) distinct head inside)

/-- who calls `QUIT` is answered as soon as both links have reported, and not before -/
theorem Routed.answer_iff (h : d.Routed calls) {demand : Demand} {t : Ticket}
    (called : calls[t]? = some demand) (quits : demand.request.verb = "QUIT")
    (answer : Except Error Answer) :
    (t, answer) ∈ d.session.world.tally.completed ↔
      ∃ command ∈ resultsOf t (d.effects .command), ∃ pubsub ∈ resultsOf t (d.effects .pubsub),
        answer = demand.wanted.hand (Client.joined command pubsub) := by
  obtain ⟨o, found, wanted, both⟩ := h.operation_of_quit called quits
  have heard := h.result?_eq_some_iff found
  rw [← mem_under, (h.tallied.each t o found).done answer, Operation.ready_iff_of_two both,
    Operation.answer_eq, wanted]
  constructor
  · rintro ⟨⟨⟨command, one⟩, pubsub, two⟩, rfl⟩
    rw [Operation.outcome_of_two both one two]
    exact ⟨command, (heard .command command).mp one, pubsub, (heard .pubsub pubsub).mp two, rfl⟩
  · rintro ⟨command, one, pubsub, two, rfl⟩
    have first := (heard .command command).mpr one
    have second := (heard .pubsub pubsub).mpr two
    exact ⟨⟨⟨command, first⟩, pubsub, second⟩, by
      rw [Operation.outcome_of_two both first second]⟩

/-- **Every call takes its route, in its turn.**  A user calls a client in any way, attempts,
sockets and timers report what they like to its two links, and the links deal with that when they
like.  Words about subscriptions, in any letter case, are written on the link for subscriptions
only; each link is handed the calls that it takes, `QUIT` for both, each of them once; what it
writes of them follows the order of the calls.  Who calls `QUIT` is answered once both links have
reported, and from the two results: it is a failure if one of them is, that of the link for
commands first. -/
theorem calls_routed {config : Config} {modes : Fields Mode} {master : String} {s : Session}
    (opens : Session.start .client config modes master = .ok s) (deeds : List Deed) :
    let calls := deeds.filterMap Deed.demand?
    let d := run ⟨s, fun _ => []⟩ deeds
    (∀ role socket w verb args, .wrote socket w (encodeCommand verb args) ∈ d.effects role →
      Transform.upperAscii verb ∈ subscribing → role = .pubsub) ∧
    (∀ role, (d.handed role).map Command.posting =
      (taken role calls).map (Demand.posting config.encoding)) ∧
    (∀ role, ((d.effects role).filterMap Effect.posting?).Sublist
      ((taken role calls).map (Demand.posting config.encoding))) ∧
    (∀ t demand, calls[t]? = some demand → demand.request.verb = "QUIT" → ∀ answer,
      (t, answer) ∈ d.session.world.tally.completed ↔
        ∃ command ∈ resultsOf t (d.effects .command), ∃ pubsub ∈ resultsOf t (d.effects .pubsub),
          answer = demand.wanted.hand (Client.joined command pubsub)) ∧
    ∀ (command pubsub : Except Error Value) (err : Error),
      Client.joined command pubsub = .error err ↔
        command = .error err ∨ (∃ v, command = .ok v) ∧ pubsub = .error err := by
  intro calls d
  obtain ⟨same, start⟩ := routed_start opens
  obtain ⟨routed, config'⟩ := start.run deeds
  rw [same] at config'
  refine ⟨fun role socket w verb args written among => ?_, fun role => ?_, fun role => ?_,
    fun t demand called quits answer => ?_, Client.joined_eq_error_iff⟩
  · cases role with
    | pubsub => rfl
    | command => exact absurd among (routed.verb_of_command written)
  · have posting := routed.posting role
    rw [config'] at posting
    exact posting
  · have order := routed.order role
    rw [config'] at order
    exact order
  · exact routed.answer_iff called quits answer

/-- a subscription, a `PING` and a `QUIT`, in lower case; the link for commands answers both, the
other link gets no socket, and `QUIT` fails with that -/
theorem calls_routed_of_three :
    let calls : List Demand := [.ofVerb .value "subscribe" [.text "a"] .list false, .ofCall .ping,
      .ofVerb .value "quit" [] .text false]
    let deeds := calls.map Deed.call ++ [.serve .command, .serve .pubsub,
      .report .pubsub (.connectFailed 1 .timeout false) rfl, .serve .pubsub,
      .report .command (.attached 1 (.fresh 0) none) rfl, .serve .command,
      .report .command (.data 1 (Utf8.encode "+PONG\r\n+OK\r\n")) rfl, .serve .command]
    let s := Session.ofLinks .client .default []
      [Link.start .command .default, Link.start .pubsub .default]
    let d := run ⟨s, fun _ => []⟩ deeds
    let ping := (1, encodeCommand "PING" [])
    let quit := (2, encodeCommand "QUIT" [])
    Session.start .client .default [] "" = .ok s ∧
      (d.handed .command).map Command.posting = [ping, quit] ∧
      (d.handed .pubsub).map Command.posting =
        [(0, encodeCommand "SUBSCRIBE" [Utf8.encode "a"]), quit] ∧
      ((d.effects .command).filterMap Effect.posting?).Sublist [ping, quit] ∧
      (2, .error .timeout) ∈ d.session.world.tally.completed := by
  intro calls deeds s d ping quit
  have opens : Session.start .client .default [] "" = .ok s := rfl
  obtain ⟨_, handed, order, answers, _⟩ := calls_routed opens deeds
  have ours : deeds.filterMap Deed.demand? = calls := rfl
  have first : (taken .command calls).map (Demand.posting .utf8) = [ping, quit] := by
    decide +kernel
  have second : (taken .pubsub calls).map (Demand.posting .utf8) =
      [(0, encodeCommand "SUBSCRIBE" [Utf8.encode "a"]), quit] := by decide +kernel
  refine ⟨opens, (handed .command).trans first, (handed .pubsub).trans second, ?_, ?_⟩
  · rw [← first]
    exact order .command
  · have one : (resultsOf 2 (d.effects .command)).any Except.isOk = true := by decide +kernel
    have two : (resultsOf 2 (d.effects .pubsub)).any (fun r => r matches .error .timeout) = true :=
      by decide +kernel
    have quits : Transform.upperAscii "quit" = "QUIT" := by decide +kernel
    obtain ⟨command, inside, ok⟩ := List.any_eq_true.mp one
    obtain ⟨pubsub, failed, late⟩ := List.any_eq_true.mp two
    have called : (deeds.filterMap Deed.demand?)[2]? =
        some (.ofVerb .value "quit" [] .text false) := congrArg (fun all => all[2]?) ours
    have named : run ⟨s, fun _ => []⟩ deeds = d := rfl
    rw [named] at answers
    clear_value d
    refine (answers 2 _ called quits _).mpr ⟨command, inside, pubsub, failed, ?_⟩
    cases command with
    | error => cases ok
    | ok v =>
      split at late
      · rfl
      · cases late

end
end Desk
end Testbed
end RespLink
