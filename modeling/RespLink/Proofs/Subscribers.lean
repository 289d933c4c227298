import RespLink.Proofs.Acknowledgements
import RespLink.Proofs.Asides
import RespLink.Proofs.Encodings

/-!
# What a subscriber hears

A subscription is registered under the text of its argument, and a push is looked up under the text
of the bytes that the server names.  The server names the bytes that it was sent, so a subscriber
hears its own messages exactly if these bytes read as that text.

* `Registry.Addressed`   every key is announced at its own address;
* `Move.registry`        only a command that is submitted makes a registry grow;
* `addressed_step`, `addressed_run`   the registry of a client's link stays addressed;
* `Link.Meets`           a reply out of a chunk, and the link that it meets;
* `own_messages_arrive`  a message is announced under the key of a subscription if and only if the
                         argument is legible.
-/

namespace RespLink

/-! ## registered keys -/

/-- what subscribes to a name of this kind -/
def Kind.verb : Kind → String
  | channel => "SUBSCRIBE"
  | pattern => "PSUBSCRIBE"

theorem deliveryAddress_inj {base key key' : String}
    (h : deliveryAddress base key = deliveryAddress base key') : key = key' :=
  String.append_right_inj _ |>.mp h

namespace Registry

/-- the messages of every key are announced at the address of the key -/
def Addressed (base : String) (r : Registry) : Prop :=
  ∀ kind key mailbox, (r.of kind).get? key = some mailbox → mailbox = deliveryAddress base key

end Registry

/-- it registers a key under its own address only -/
def Change.Addressed (base : String) : Change → Prop
  | subscribe _ mailboxes => ∀ p ∈ mailboxes, p.2 = deliveryAddress base p.1
  | unsubscribe _ _ => True

namespace Registry

section
variable {base : String} {r : Registry}

theorem addressed_empty (base : String) : empty.Addressed base := by
  intro kind key mailbox found
  cases kind <;> cases found

theorem Addressed.set (h : r.Addressed base) {kind : Kind} {fields : Fields Mailbox}
    (own : ∀ key mailbox, fields.get? key = some mailbox → mailbox = deliveryAddress base key) :
    (r.set kind fields).Addressed base := by
  intro k key mailbox found
  rw [of_set] at found
  split at found
  · exact own key mailbox found
  · exact h k key mailbox found

theorem Addressed.register (h : r.Addressed base) (kind : Kind) (key : String) :
    (r.register kind key (deliveryAddress base key)).Addressed base := by
  refine h.set fun k mailbox found => ?_
  rw [Fields.get?_insert] at found
  split at found
  · next same =>
    cases found
    rw [same]
  · exact h kind k mailbox found

theorem Addressed.unregister (h : r.Addressed base) (kind : Kind) (key : String) :
    (r.unregister kind key).Addressed base := by
  refine h.set fun k mailbox found => ?_
  rw [Fields.get?_erase] at found
  split at found
  · cases found
  · exact h kind k mailbox found

theorem Addressed.apply (h : r.Addressed base) {change : Change} (own : change.Addressed base) :
    (r.apply change).1.Addressed base := by
  cases change with
  | subscribe kind mailboxes =>
    rw [Registry.apply]
    induction mailboxes generalizing r with
    | nil => exact h
    | cons p rest ih =>
      obtain ⟨key, mailbox⟩ := p
      obtain rfl : mailbox = deliveryAddress base key := own _ List.mem_cons_self
      exact ih (h.register kind key) fun p inside => own p (List.mem_cons_of_mem _ inside)
  | unsubscribe kind keys =>
    cases keys with
    | nil => exact h.set fun key mailbox found => nomatch found
    | cons key keys =>
      rw [Registry.apply]
      generalize key :: keys = all
      induction all generalizing r with
      | nil => exact h
      | cons key rest ih => exact ih (h.unregister kind key)

/-- what is registered stays so while more is -/
theorem has_register {kind : Kind} {k : String} (h : r.has kind k = true) (key : String)
    (mailbox : Mailbox) : (r.register kind key mailbox).has kind k = true := by
  rw [has, Fields.has] at h ⊢
  rw [register, of_set, if_pos rfl, Fields.get?_insert]
  split
  · rfl
  · exact h

theorem has_registered (r : Registry) (kind : Kind) (key : String) (mailbox : Mailbox) :
    (r.register kind key mailbox).has kind key = true := by
  rw [has, Fields.has, register, of_set, if_pos rfl, Fields.get?_insert, if_pos rfl]
  rfl

/-- a subscription registers every key that it names -/
theorem has_subscribe (r : Registry) (kind : Kind) (mailboxes : List (String × Mailbox))
    {key : String} (named : key ∈ mailboxes.map Prod.fst) :
    (r.apply (.subscribe kind mailboxes)).1.has kind key = true := by
  have stays (rest : List (String × Mailbox)) {r : Registry} (there : r.has kind key = true) :
      (r.apply (.subscribe kind rest)).1.has kind key = true := by
    rw [apply]
    induction rest generalizing r with
    | nil => exact there
    | cons p rest ih => exact ih (has_register there p.1 p.2)
  induction mailboxes generalizing r with
  | nil => cases named
  | cons p rest ih =>
    rw [List.map_cons, List.mem_cons] at named
    obtain rfl | later := named
    · exact stays rest (has_registered r kind p.1 p.2)
    · exact ih (r.register kind p.1 p.2) later

end
end Registry

/-- what the command changes is addressed -/
def Command.Addressed (base : String) (c : Command) : Prop :=
  ∀ change, c.change? = some change → change.Addressed base

theorem Registry.Addressed.enter {base : String} {r : Registry} (h : r.Addressed base) {c : Command}
    (own : c.Addressed base) : (r.enter c).1.Addressed base := by
  rw [Registry.enter]
  split
  · exact h
  · next change some => exact h.apply (own change some)

/-! ## along a run -/

namespace Link
variable {l m : Link} {ins : List Intake} {es : List Effect} {base : String}

theorem Onward.registry {steps : List (Handshake × Bytes)} (h : Onward steps l es m) :
    m.registry = l.registry := by
  cases h <;> rfl

/-- without a command, what is registered stays as it is or is lost as a whole -/
theorem Move.registry (h : Move l ins es m) (quiet : ∀ i ∈ ins, i.command? = .none) :
    m.registry = l.registry ∨ m.registry = .empty := by
  cases h with
  | keep => cases quiet _ List.mem_cons_self
  | dial phase =>
    left
    rw [connect, if_pos phase]
  | attach _ _ _ _ onward => exact .inl onward.registry
  | advance _ _ _ _ _ _ _ _ _ onward => exact .inl onward.registry
  | lose _ _ active =>
    rw [fail_of_active active, teardown_link]
    exact .inr rfl
  | part =>
    rw [teardown_link]
    exact .inr rfl
  | stop =>
    rw [shutdown_link]
    exact .inl rfl
  | _ => exact .inl rfl

theorem Moves.registry (h : Moves l ins es m) (quiet : ∀ i ∈ ins, i.command? = .none) :
    m.registry = l.registry ∨ m.registry = .empty := by
  induction h with
  | none => exact .inl rfl
  | more _ last ih =>
    have before := ih fun i inside => quiet i (List.mem_append_left _ inside)
    have now := last.registry fun i inside => quiet i (List.mem_append_right _ inside)
    rcases now with same | lost
    · rw [same]
      exact before
    · exact .inr lost

theorem Moves.addressed (h : Moves l ins es m) (quiet : ∀ i ∈ ins, i.command? = .none)
    (before : l.registry.Addressed base) : m.registry.Addressed base := by
  rcases h.registry quiet with same | lost
  · rw [same]
    exact before
  · rw [lost]
    exact Registry.addressed_empty base

/-- a command is submitted, and the registry is what it makes of it, or is lost in writing it -/
theorem registry_send (settled : Settled l) (pubsub : l.role = .pubsub) (c : Command) :
    (l.send c).link.registry = (l.registry.enter c).1 ∨ (l.send c).link.registry = .empty := by
  obtain ⟨ins, form, lead⟩ := kept_leads settled (l.registry.enter c).2 (l.registry.enter c).1
  have quiet : ∀ i ∈ ins, i.command? = none := by
    rcases form with rfl | ⟨_, rfl⟩ <;> simp [Intake.command?]
  rw [send_of_pubsub pubsub]
  exact lead.1.registry quiet

/-- **Every event keeps the registry addressed.** -/
theorem addressed_step (settled : Settled l) (pubsub : l.role = .pubsub) (e : Event)
    (own : ∀ c, e.command? l.config.encoding = some c → c.Addressed base)
    (before : l.registry.Addressed base) : (l.step e).link.registry.Addressed base := by
  cases command : e.command? l.config.encoding with
  | none =>
    obtain ⟨ins, brings, lead⟩ := step_leads settled e
    have commands := brings.commands
    rw [command] at commands
    have none : ins.filterMap Intake.command? = [] := List.forall₂_nil_left_iff.mp commands
    exact lead.1.addressed (List.filterMap_eq_nil_iff.mp none) before
  | some c =>
    obtain ⟨effect, same, _⟩ | ⟨_, same⟩ := step_of_command command
    · rw [same]
      exact before
    · rw [same]
      rcases registry_send settled pubsub c with kept | lost
      · rw [kept]
        exact before.enter (own c command)
      · rw [lost]
        exact Registry.addressed_empty base

theorem addressed_run (settled : Settled l) (pubsub : l.role = .pubsub) {events : List Event}
    (own : ∀ c ∈ events.filterMap (Event.command? l.config.encoding), c.Addressed base)
    (before : l.registry.Addressed base) :
    (run events l).link.registry.Addressed base := by
  induction events generalizing l with
  | nil => exact before
  | cons e rest ih =>
    obtain ⟨ins, _, lead⟩ := step_leads settled e
    obtain ⟨role, config⟩ := lead.1.same
    have first := addressed_step settled pubsub e
      (fun c hc => own c (List.mem_filterMap.mpr ⟨e, List.mem_cons_self, hc⟩)) before
    rw [run, Turn.andThen_link]
    refine ih lead.2 (role.trans pubsub) (fun c hc => ?_) first
    rw [config] at hc
    obtain ⟨e', inside, some⟩ := List.mem_filterMap.mp hc
    exact own c (List.mem_filterMap.mpr ⟨e', List.mem_cons_of_mem _ inside, some⟩)

/-! ## the replies of a chunk -/

/-- a reply out of a chunk that the link receives meets it as `m`, on the same socket -/
def Meets (l : Link) (chunk : Bytes) (reply : Reply) (m : Link) : Prop :=
  ∃ before later, (l.parser.feed chunk).replies = before ++ reply :: later ∧
    m = (onReplies l.epoch before { l with parser := (l.parser.feed chunk).parser }).link ∧
    m.epoch = l.epoch

section
variable {chunk : Bytes} {reply : Reply}

/-- what a reply does is done in the step that its chunk leads to -/
theorem Meets.effects (h : l.Meets chunk reply m) (running : l.stopped = false) :
    ∃ front back, (l.step (.data l.epoch chunk)).effects =
      front ++ (m.onReply reply).effects ++ back := by
  obtain ⟨before, later, replies, rfl, current⟩ := h
  have received : l.step (.data l.epoch chunk) = l.receive chunk := by
    rw [step_of_running running, runningStep, if_pos rfl]
  rw [received, receive, replies, onReplies_append, Turn.andThen_effects, Turn.andThen_effects,
    onReplies, if_pos current, Turn.andThen_effects]
  exact ⟨_, _, by simp only [List.append_assoc]; rfl⟩

theorem Meets.same (h : l.Meets chunk reply m) (settled : Settled l) :
    m.role = l.role ∧ m.config = l.config := by
  obtain ⟨before, _, _, rfl, _⟩ := h
  have fed : Settled { l with parser := (l.parser.feed chunk).parser } := { settled with }
  obtain ⟨_, _, lead, _⟩ := onReplies_leads fed l.epoch before
  exact lead.1.same

theorem Meets.addressed (h : l.Meets chunk reply m) (settled : Settled l)
    (before : l.registry.Addressed base) : m.registry.Addressed base := by
  obtain ⟨replies, _, _, rfl, _⟩ := h
  have fed : Settled { l with parser := (l.parser.feed chunk).parser } := { settled with }
  obtain ⟨heard, _, lead, _⟩ := onReplies_leads fed l.epoch replies
  refine lead.1.addressed (fun i inside => ?_) before
  obtain ⟨_, _, rfl⟩ := List.mem_map.mp inside
  rfl

end
end Link

/-! ## messages -/

/-- the element that names the subscription -/
def Notice.name : Notice → Reply
  | message channel _ => channel
  | pmessage pattern _ _ => pattern

theorem Notice.key_of_bulk {n : Notice} {bytes : Bytes} (h : n.name = .bulk bytes) (e : Encoding) :
    n.key e = e.decode bytes := by
  cases n <;> (cases h; rfl)

/-- where a push goes that meets a link for subscriptions -/
theorem Link.effects_of_notice {l : Link} (pubsub : l.role = .pubsub) (n : Notice) :
    (l.onReply n.reply).effects =
      ((l.registry.of n.kind).get? (n.key l.config.encoding)).toList.map fun mailbox =>
        .delivered mailbox (n.push l.config.encoding) := by
  rw [onReply, push?_of_pubsub pubsub, Notice.read_reply]
  dsimp only
  rw [Notice.destination?_push]

/-- with every key addressed, a registered one hears exactly the pushes whose name reads as it -/
theorem Link.delivered_iff {l : Link} {base : String} (pubsub : l.role = .pubsub)
    (addressed : l.registry.Addressed base) {n : Notice} {key : String}
    (registered : l.registry.has n.kind key = true) :
    (l.onReply n.reply).effects =
        [.delivered (deliveryAddress base key) (n.push l.config.encoding)] ↔
      n.key l.config.encoding = key := by
  rw [effects_of_notice pubsub]
  constructor
  · intro delivered
    cases found : (l.registry.of n.kind).get? (n.key l.config.encoding) with
    | none =>
      rw [found] at delivered
      cases delivered
    | some mailbox =>
      rw [found] at delivered
      obtain ⟨same, -⟩ := Effect.delivered.inj (List.cons.inj delivered).1
      rw [addressed _ _ _ found] at same
      exact deliveryAddress_inj same
  · rintro rfl
    obtain ⟨mailbox, found⟩ := Option.isSome_iff_exists.mp registered
    rw [found, addressed _ _ _ found]
    rfl

namespace Client
variable {config : Config}

/-- a command that some request puts on the link for subscriptions -/
def Places (config : Config) (c : Command) : Prop :=
  ∃ (t : Ticket) (r : Request), (.pubsub, c) ∈ commands config t r

theorem addressed_change {r : Request} {change : Change} (h : change? config r = some change) :
    change.Addressed config.address := by
  have own : ∀ p ∈ mailboxes config r, p.2 = deliveryAddress config.address p.1 := by
    intro p inside
    obtain ⟨key, _, rfl⟩ := List.mem_map.mp inside
    rfl
  rw [change?] at h
  split at h
  · cases h
    exact own
  split at h
  · cases h
    exact own
  split at h
  · cases h
    trivial
  split at h
  · cases h
    trivial
  · cases h

theorem addressed_of_places {c : Command} (h : Places config c) : c.Addressed config.address := by
  obtain ⟨t, r, inside⟩ := h
  obtain ⟨change, some, rfl⟩ | ⟨_, rfl⟩ := cases_of_pubsub inside
  · intro _ same
    cases same
    exact addressed_change some
  · exact nofun

theorem change?_of_verb {kind : Kind} {r : Request} (h : r.verb = kind.verb) :
    change? config r = some (.subscribe kind (mailboxes config r)) := by
  rw [change?, h]
  cases kind <;> rfl

theorem commands_of_verb {kind : Kind} {r : Request} (h : r.verb = kind.verb) (t : Ticket) :
    commands config t r = [(.pubsub, (Command.ofRequest t r config.encoding).changing
      (.subscribe kind (mailboxes config r)))] := by
  rw [commands, change?_of_verb h]

/-- **A subscriber hears its own messages if and only if its argument is legible.**  A client's
requests go to its link for subscriptions, and sockets come, break and fail to come.  A request to
subscribe becomes one command, and each of its arguments is registered as soon as that is submitted,
unless the socket is lost on it.  From then on, while an argument is registered, let a push out of
any chunk name the bytes that this argument has in the frame: it is announced at the address of the
registered key exactly if the argument is legible.  That is so for all byte strings and numbers, for
every text without the binary flag under UTF-8, up to U+00FF under Latin-1, and up to U+007F for a
text that the flag sends in Latin-1 while the client reads UTF-8. -/
theorem own_messages_arrive (config : Config) (events : List Event)
    (placed : ∀ c, .send c ∈ events → Places config c) :
    let l := (Link.run events (Link.start .pubsub config)).link
    ∀ (kind : Kind) (t : Ticket) (r : Request), r.verb = kind.verb →
      (∃ c, commands config t r = [(.pubsub, c)] ∧ c.frame = (r.wording config.encoding).frame ∧
        (l.stopped = false →
          (∀ arg ∈ r.args, (l.step (.send c)).link.registry.has kind
            (arg.toText config.encoding) = true) ∨ (l.step (.send c)).link.registry = .empty)) ∧
      ∀ arg ∈ r.args, ∀ (n : Notice), n.kind = kind →
        n.name = .bulk (arg.toBytes (r.encoding config.encoding)) →
        ∀ (chunk : Bytes) (m : Link), l.stopped = false → l.Meets chunk n.reply m →
          m.registry.has kind (arg.toText config.encoding) = true →
          (∃ front back, (l.step (.data l.epoch chunk)).effects =
            front ++ (m.onReply n.reply).effects ++ back) ∧
          ((m.onReply n.reply).effects = [.delivered
              (deliveryAddress config.address (arg.toText config.encoding))
              (n.push config.encoding)] ↔
            arg.Legible (r.encoding config.encoding) config.encoding) := by
  intro l kind t r subscribes
  have own : ∀ c ∈ events.filterMap (Event.command? config.encoding),
      c.Addressed config.address := by
    intro c hc
    obtain ⟨e, inside, some⟩ := List.mem_filterMap.mp hc
    cases e <;> cases some
    · exact addressed_of_places (placed c inside)
    · exact nofun
  obtain ⟨_, lead, _⟩ := Link.run_leads (Link.settled_start .pubsub config) events
  have pubsub : l.role = .pubsub := lead.1.same.1
  have same : l.config = config := lead.1.same.2
  have addressed : l.registry.Addressed config.address :=
    Link.addressed_run (Link.settled_start .pubsub config) rfl own (Registry.addressed_empty _)
  refine ⟨⟨_, commands_of_verb subscribes t, rfl, fun running => ?_⟩, ?_⟩
  · rw [Link.step_of_running running]
    refine (Link.registry_send lead.2 pubsub _).imp_left fun kept arg inside => ?_
    rw [Link.runningStep, kept]
    refine Registry.has_subscribe _ kind _ ?_
    rw [mailboxes, List.map_map]
    exact List.mem_map.mpr ⟨_, List.mem_map.mpr ⟨arg, inside, rfl⟩, rfl⟩
  · rintro arg inside n rfl named chunk m running meets registered
    obtain ⟨role, config'⟩ := meets.same lead.2
    have heard := Link.delivered_iff (role.trans pubsub) (meets.addressed lead.2 addressed)
      registered
    rw [config', same, Notice.key_of_bulk named] at heard
    exact ⟨meets.effects running, heard.trans (arg.decode_toBytes_iff _ _)⟩

/-- under Latin-1, a pattern with a character above U+007F and a number as another -/
theorem own_messages_arrive_on_latin1 :
    let config := { Config.default with encoding := .latin1 }
    let arg : Arg := .text "é*"
    let r := (Request.ofVerb "psubscribe").withArgs [arg, .int (-7)]
    let events := ((commands config 1 r).map fun p => Event.send p.2) ++
      [.attached 1 (.fresh 7) none]
    let l := (Link.run events (Link.start .pubsub config)).link
    let n := Notice.pmessage (.bulk [0xE9, 0x2A]) (.bulk [0xE9, 0x74]) (.bulk [0x68, 0x69])
    let chunk := encodeCommand "pmessage" [[0xE9, 0x2A], [0xE9, 0x74], [0x68, 0x69]]
    let m := { l with parser := (l.parser.feed chunk).parser }
    (∀ c, .send c ∈ events → Places config c) ∧ r.verb = Kind.pattern.verb ∧
      n.name = .bulk (arg.toBytes (r.encoding config.encoding)) ∧ l.stopped = false ∧
      l.Meets chunk n.reply m ∧ m.registry.has .pattern "é*" = true ∧
      (m.onReply n.reply).effects =
        [.delivered (deliveryAddress config.address "é*") (n.push config.encoding)] ∧
      n.push config.encoding = ⟨"ét", "hi", some "é*"⟩ := by
  intro config arg r events l n chunk m
  have verb : r.verb = Kind.pattern.verb := by decide +kernel
  have placed : ∀ c, .send c ∈ events → Places config c := by
    intro c inside
    rw [List.mem_append, List.mem_map] at inside
    obtain ⟨⟨role, c'⟩, there, sent⟩ | other := inside
    · cases sent
      have only := there
      rw [commands_of_verb verb] at only
      obtain ⟨rfl, _⟩ := Prod.mk.inj (List.mem_singleton.mp only)
      exact ⟨1, r, there⟩
    · cases List.mem_singleton.mp other
  have name : n.name = .bulk (arg.toBytes (r.encoding config.encoding)) := by decide +kernel
  have running : l.stopped = false := by decide +kernel
  have meets : l.Meets chunk n.reply m :=
    ⟨[], [], by decide +kernel, rfl, rfl⟩
  have registered : m.registry.has .pattern "é*" = true := by decide +kernel
  obtain ⟨_, heard⟩ := own_messages_arrive config events placed .pattern 1 r verb
  obtain ⟨_, delivered⟩ := heard arg List.mem_cons_self n rfl name chunk m running meets registered
  exact ⟨placed, verb, name, running, meets, registered, delivered.mpr (by decide +kernel),
    by decide +kernel⟩

/-- a client that reads UTF-8 subscribes with the binary flag: the frame names the channel by one
byte, the key is registered, and the message that names this byte is lost -/
theorem own_message_lost :
    let config := Config.default
    let r := { (Request.ofVerb "subscribe").withTexts ["é"] with binary := true }
    let events := ((commands config 1 r).map fun p => Event.send p.2) ++
      [.attached 1 (.fresh 7) none]
    let l := (Link.run events (Link.start .pubsub config)).link
    let n := Notice.message (.bulk [0xE9]) (.bulk [0x68, 0x69])
    let chunk := encodeCommand "message" [[0xE9], [0x68, 0x69]]
    let m := { l with parser := (l.parser.feed chunk).parser }
    r.verb = Kind.channel.verb ∧ (r.wording config.encoding).args = [[0xE9]] ∧
      l.Meets chunk n.reply m ∧ m.registry.has .channel "é" = true ∧
      (m.onReply n.reply).effects = [] ∧ (l.step (.data l.epoch chunk)).effects = [] := by
  intro config r events l n chunk m
  exact ⟨by decide +kernel, by decide +kernel, ⟨[], [], by decide +kernel, rfl, rfl⟩,
    by decide +kernel, List.isEmpty_iff.mp (by decide +kernel),
    List.isEmpty_iff.mp (by decide +kernel)⟩

end Client
end RespLink
