import RespLink.Proofs.Scene

/-!
# Whose replies a link hears

The replies that meet the link during a sitting are those in the bytes of that socket, from the
first one on, pushes apart.  None is skipped while the socket is in use, and none comes from
elsewhere.

* `Link.hears`      a reply is no push on this link;
* `bytesOf`         the bytes that were read from the socket of an epoch;
* `repliesOf`       the replies in them, up to a fault, pushes apart;
* `Moves.replies`   the replies that are met are those that come in, pushes apart;
* `Heard`           replies met against bytes read, for every sitting;
* `Heard.attach`, `Heard.data`, `Heard.other`   it is kept by every event that can happen;
* `heard_of_plays`  it holds in every play.
-/

namespace RespLink

/-! ## feeding in pieces -/

namespace Parser

theorem feedChunks_append (p : Parser) (a b : List Bytes) :
    p.feedChunks (a ++ b) =
      match (p.feedChunks a).fault with
      | some _ => p.feedChunks a
      | none => ⟨((p.feedChunks a).parser.feedChunks b).parser,
        (p.feedChunks a).replies ++ ((p.feedChunks a).parser.feedChunks b).replies,
        ((p.feedChunks a).parser.feedChunks b).fault⟩ := by
  induction a generalizing p with
  | nil => rfl
  | cons chunk a ih =>
    rw [List.cons_append, feedChunks, feedChunks]
    cases fault : (p.feed chunk).fault with
    | some why => rfl
    | none =>
      rw [ih]
      cases later : ((p.feed chunk).parser.feedChunks a).fault with
      | some why => rfl
      | none => simp only [List.append_assoc]

/-- more bytes take no reply back -/
theorem replies_mono (p : Parser) (a b : List Bytes) :
    (p.feedChunks a).replies <+: (p.feedChunks (a ++ b)).replies := by
  rw [feedChunks_append]
  split
  · exact List.prefix_rfl
  · exact List.prefix_append _ _

/-- one more chunk after sound ones -/
theorem feedChunks_snoc {p : Parser} {a : List Bytes} (sound : (p.feedChunks a).fault = none)
    (chunk : Bytes) :
    p.feedChunks (a ++ [chunk]) =
      ⟨((p.feedChunks a).parser.feed chunk).parser,
        (p.feedChunks a).replies ++ ((p.feedChunks a).parser.feed chunk).replies,
        ((p.feedChunks a).parser.feed chunk).fault⟩ := by
  rw [feedChunks_append, sound]
  have one : (p.feedChunks a).parser.feedChunks [chunk]
      = (p.feedChunks a).parser.feed chunk := by
    rw [feedChunks]
    cases fault : ((p.feedChunks a).parser.feed chunk).fault with
    | some why =>
      show Fed.mk _ _ (some why) = _
      rw [← fault]
    | none =>
      show Fed.mk _ (_ ++ []) none = _
      rw [List.append_nil, ← fault]
      rfl
  simp only [one]

end Parser

/-! ## replies and moves -/

def Effect.reply? : Effect → Option Reply
  | met _ reply => some reply
  | _ => none

def Intake.reply? : Intake → Option Reply
  | reply r => some r
  | _ => none

/-- the replies that met the link, in order -/
def Sitting.replies (x : Sitting) : List Reply := x.effects.filterMap Effect.reply?

theorem Sitting.replies_extend (es : List Effect) (x : Sitting) :
    (x.extend es).replies = x.replies ++ es.filterMap Effect.reply? := List.filterMap_append

namespace Link

/-- a reply is no push -/
def hears (l : Link) (r : Reply) : Bool := (l.push? r).isNone

section
variable {l m : Link} {ins : List Intake} {es : List Effect} {steps : List (Handshake × Bytes)}

theorem hears_of_same (same : m.role = l.role ∧ m.config = l.config) : m.hears = l.hears := by
  funext r
  rw [hears, hears, push?, push?, same.1, same.2]

theorem overlooks_reply : Overlooks Effect.reply? :=
  ⟨fun _ _ => rfl, fun _ => rfl, fun _ => rfl⟩

theorem Onward.replies (h : Onward steps l es m) : es.filterMap Effect.reply? = [] := by
  cases h <;> rfl

theorem Move.replies (h : Move l ins es m) :
    es.filterMap Effect.reply? = (ins.filterMap Intake.reply?).filter l.hears := by
  have heard {reply : Reply} (plain : l.push? reply = none) :
      [reply].filter l.hears = [reply] := by
    rw [List.filter_cons_of_pos (by rw [hears, plain]; rfl), List.filter_nil]
  cases h with
  | dial phase =>
    rw [connect, if_pos phase]
    rfl
  | attach socket sentinel? err phase onward =>
    rw [List.filterMap_cons_none rfl, List.filterMap_append,
      filterMap_failures overlooks_reply.failed, onward.replies]
    rfl
  | advance h rest reply s plain phase held front passes onward =>
    show reply :: List.filterMap Effect.reply? _ = [reply].filter l.hears
    rw [onward.replies, heard plain]
  | balk h rest reply plain => exact (heard plain).symm
  | lose err retry active =>
    rw [overlooks_reply.fail active]
    rfl
  | push reply es known mails =>
    have none : es.filterMap Effect.reply? = [] := filterMap_mails (fun _ _ => rfl) mails
    have pushes : ¬ l.hears reply = true := fun h => known (Option.isNone_iff_eq_none.mp h)
    show _ = [reply].filter l.hears
    rw [none, List.filter_cons_of_neg pushes, List.filter_nil]
  | drop reply plain => exact (heard plain).symm
  | take c rest reply plain => exact (heard plain).symm
  | finish c rest reply plain => exact (heard plain).symm
  | part c rest reply err plain =>
    show reply :: List.filterMap Effect.reply? (_ ++ _) = [reply].filter l.hears
    rw [List.filterMap_append, overlooks_reply.teardown, heard plain]
    rfl
  | stop =>
    rw [overlooks_reply.shutdown]
    rfl
  | _ => rfl

/-- the replies that are met are those that come in, pushes apart -/
theorem Moves.replies (h : Moves l ins es m) :
    es.filterMap Effect.reply? = (ins.filterMap Intake.reply?).filter l.hears := by
  induction h with
  | none => rfl
  | more before last ih =>
    rw [List.filterMap_append, List.filterMap_append, List.filter_append, ih, last.replies,
      hears_of_same before.same]

theorem Moves.replies_met {met : List Reply} (h : Moves l (met.map .reply) es m) :
    es.filterMap Effect.reply? = met.filter l.hears := by
  have all : (met.map Intake.reply).filterMap Intake.reply? = met := by
    rw [List.filterMap_map]
    exact List.filterMap_some
  rw [h.replies, all]

/-- no socket comes into use without a socket coming in -/
theorem Moves.openings (h : Moves l ins es m)
    (none : ∀ socket sentinel?, Intake.socket socket sentinel? ∉ ins) :
    ∀ e ∈ es, e.opening? = .none := by
  induction h with
  | none =>
    intro e he
    cases he
  | more _ last ih =>
    intro e he
    rcases List.mem_append.mp he with before | new
    · exact ih (fun n i h => none n i (List.mem_append_left _ h)) e before
    · rcases last.calm_or_opens with calm | ⟨_, _, rfl⟩ | ⟨n, i, _, _, rfl, _⟩
      · exact Effect.opening?_of_isCalm (calm e new)
      · rw [List.mem_singleton.mp new]
        rfl
      · exact absurd (List.mem_append_right _ List.mem_cons_self) (none n i)

end
end Link

/-! ## sittings and bytes -/

/-- the bytes that were read from the socket of an epoch, chunk by chunk -/
def bytesOf (epoch : Nat) (events : List Event) : List Bytes :=
  events.filterMap fun
    | .data e chunk => if e = epoch then some chunk else none
    | _ => none

/-- the replies in the bytes of an epoch, up to a fault, pushes apart -/
def repliesOf (role : Role) (config : Config) (events : List Event) (epoch : Nat) : List Reply :=
  (Parser.empty.feedChunks (bytesOf epoch events)).replies.filter (Link.start role config).hears

theorem bytesOf_append (epoch : Nat) (a b : List Event) :
    bytesOf epoch (a ++ b) = bytesOf epoch a ++ bytesOf epoch b := List.filterMap_append

theorem repliesOf_mono (role : Role) (config : Config) (a b : List Event) (epoch : Nat) :
    repliesOf role config a epoch <+: repliesOf role config (a ++ b) epoch := by
  rw [repliesOf, repliesOf, bytesOf_append]
  obtain ⟨more, e⟩ := Parser.empty.replies_mono (bytesOf epoch a) (bytesOf epoch b)
  rw [← e, List.filter_append]
  exact List.prefix_append _ _

namespace Scene

/-- replies met against bytes read, after these events -/
structure Heard (role : Role) (config : Config) (seen : List Event) (s : Scene) : Prop where
  same : s.link.role = role ∧ s.link.config = config
  /-- a socket is read once it is in use -/
  read : ∀ epoch, bytesOf epoch seen ≠ [] → ∃ o ∈ s.openings, o.epoch = epoch
  /-- a later socket has a later epoch -/
  ordered : (s.openings.map Opening.epoch).Pairwise (· < ·)
  heard : ∀ x ∈ (Sittings.of s.past).all, ∀ o, x.opening? = some o →
    x.replies <+: repliesOf role config seen o.epoch
  /-- nothing is missing on the socket in use -/
  now : s.link.stopped = false → s.link.held?.isSome = true →
    (Parser.empty.feedChunks (bytesOf s.link.epoch seen)).fault = none ∧
    (Parser.empty.feedChunks (bytesOf s.link.epoch seen)).parser = s.link.parser ∧
    (Sittings.of s.past).latest.replies = repliesOf role config seen s.link.epoch

section
variable {role : Role} {config : Config} {seen : List Event} {s : Scene} {e : Event}

theorem heard_start (role : Role) (config : Config) : Heard role config [] (start role config) where
  same := ⟨rfl, rfl⟩
  read _ h := absurd rfl h
  ordered := List.Pairwise.nil
  heard := by
    intro x hx o opening
    cases List.mem_singleton.mp hx
    cases opening
  now _ held := nomatch held

theorem Heard.same_next (heard : Heard role config seen s) (settled : s.link.Settled) (e : Event) :
    (s.next e).link.role = role ∧ (s.next e).link.config = config := by
  obtain ⟨_, _, moves, _⟩ := Link.step_leads settled e
  exact ⟨moves.same.1.trans heard.same.1, moves.same.2.trans heard.same.2⟩

/-- what the socket in use is known by -/
theorem Kept.latest (kept : s.Kept) {socket : Nat} (held : s.link.held? = some socket) :
    ∃ o, (Sittings.of s.past).latest.opening? = some o ∧ o.epoch = s.link.epoch ∧
      o.socket = socket := by
  have holds := kept.holds
  rw [held] at holds
  obtain ⟨before, epoch, sentinel?, openings, current, _⟩ := holds
  refine ⟨⟨epoch, socket, sentinel?⟩, ?_, current, rfl⟩
  rw [Sittings.latest_of]
  show s.openings.getLast? = _
  rw [openings, List.getLast?_concat]

theorem openings_next_of_calm (calm : ∀ e' ∈ (s.link.step e).effects, e'.opening? = none) :
    (s.next e).openings = s.openings := by
  show (s.past ++ _).filterMap _ = _
  rw [List.filterMap_append, List.filterMap_eq_nil_iff.mpr calm, List.append_nil]
  rfl

/-- the latest sitting goes on -/
theorem sittings_next_of_calm (calm : ∀ e' ∈ (s.link.step e).effects, e'.opening? = none) :
    Sittings.of (s.next e).past =
      ⟨(Sittings.of s.past).latest.extend (s.link.step e).effects, (Sittings.of s.past).past⟩ := by
  show Sittings.of (s.past ++ _) = _
  rw [Sittings.of_append, Sittings.notes_of_calm calm]

/-- an event that brings neither a socket into use nor a reply -/
theorem Heard.calm (heard : Heard role config seen s) (settled : s.link.Settled)
    (calm : ∀ e' ∈ (s.link.step e).effects, e'.opening? = none)
    (quiet : (s.link.step e).effects.filterMap Effect.reply? = [])
    (read : ∀ epoch, bytesOf epoch [e] ≠ [] → ∃ o ∈ s.openings, o.epoch = epoch)
    (now : (s.next e).link.stopped = false → (s.next e).link.held?.isSome = true →
      s.link.stopped = false ∧ s.link.held?.isSome = true ∧
        (s.next e).link.epoch = s.link.epoch ∧ (s.next e).link.parser = s.link.parser ∧
        bytesOf s.link.epoch [e] = []) :
    Heard role config (seen ++ [e]) (s.next e) := by
  have openings := openings_next_of_calm calm
  have sittings := sittings_next_of_calm calm
  have latest : ((Sittings.of s.past).latest.extend (s.link.step e).effects).replies
      = (Sittings.of s.past).latest.replies := by
    rw [Sitting.replies_extend, quiet, List.append_nil]
  refine ⟨heard.same_next settled e, fun epoch bytes => ?_, ?_, fun x hx o opening => ?_,
    fun running held => ?_⟩
  · rw [openings]
    rw [bytesOf_append] at bytes
    by_cases before : bytesOf epoch seen = []
    · rw [before, List.nil_append] at bytes
      exact read epoch bytes
    · exact heard.read epoch before
  · rw [openings]
    exact heard.ordered
  · refine List.IsPrefix.trans ?_ (repliesOf_mono role config seen [e] o.epoch)
    rw [sittings] at hx
    rcases List.mem_cons.mp hx with rfl | before
    · rw [latest]
      exact heard.heard _ List.mem_cons_self o opening
    · exact heard.heard x (List.mem_cons_of_mem _ before) o opening
  · obtain ⟨running', held', epoch, parser, none⟩ := now running held
    have same : bytesOf s.link.epoch (seen ++ [e]) = bytesOf s.link.epoch seen := by
      rw [bytesOf_append, none, List.append_nil]
    rw [epoch, parser, sittings, repliesOf, same, latest]
    exact heard.now running' held'

/-! ## a fresh socket -/

/-- in the epoch of a link that holds no socket nothing was read -/
theorem Heard.unread_of_free (heard : Heard role config seen s) (kept : s.Kept)
    (free : s.link.held? = none) : bytesOf s.link.epoch seen = [] := by
  have older := kept.holds
  rw [free] at older
  by_contra bytes
  obtain ⟨o, ho, same⟩ := heard.read s.link.epoch bytes
  have lt := older o ho
  omega

section
variable {epoch socket : Nat} {sentinel? : Option Nat} {es : List Effect}

theorem openings_next_of_attached
    (effects : (s.link.step e).effects = .attached epoch socket sentinel? :: es)
    (calm : ∀ e' ∈ es, e'.opening? = none) :
    (s.next e).openings = s.openings ++ [⟨epoch, socket, sentinel?⟩] := by
  show (s.past ++ (s.link.step e).effects).filterMap _ = _
  rw [effects, List.filterMap_append]
  exact congrArg (fun os => s.openings ++ _ :: os) (List.filterMap_eq_nil_iff.mpr calm)

/-- the next sitting begins -/
theorem sittings_next_of_attached
    (effects : (s.link.step e).effects = .attached epoch socket sentinel? :: es)
    (calm : ∀ e' ∈ es, e'.opening? = none) :
    Sittings.of (s.next e).past =
      ⟨⟨some ⟨epoch, socket, sentinel?⟩, es⟩, (Sittings.of s.past).all⟩ := by
  show Sittings.of (s.past ++ (s.link.step e).effects) = _
  rw [effects, Sittings.of_append, Sittings.notes_cons_of_opening rfl, Sittings.notes_of_calm calm]
  rfl

/-- a socket comes into use, and no reply is met; if it stays in use nothing was read from it -/
theorem step_attached (running : s.link.stopped = false) (phase : s.link.phase = .connecting)
    (socket : Socket) (sentinel? : Option Nat) :
    ∃ es, (s.link.step (.attached s.link.epoch socket sentinel?)).effects
        = .attached s.link.epoch socket.number sentinel? :: es ∧
      (∀ e' ∈ es, e'.opening? = none) ∧ es.filterMap Effect.reply? = [] ∧
      ((s.link.step (.attached s.link.epoch socket sentinel?)).link.held?.isSome = true →
        (s.link.step (.attached s.link.epoch socket sentinel?)).link.epoch = s.link.epoch ∧
        (s.link.step (.attached s.link.epoch socket sentinel?)).link.parser = .empty) := by
  have step : s.link.step (.attached s.link.epoch socket sentinel?)
      = s.link.attach socket sentinel? := by
    rw [Link.step_of_running running]
    exact if_pos ⟨rfl, phase⟩
  obtain ⟨es, m, t, onward, turn, moves, _⟩ := Link.attach_moves phase socket sentinel?
  rw [step, turn]
  refine ⟨_, rfl, fun e he => ?_, ?_, fun held => ?_⟩
  · rcases List.mem_append.mp he with first | later
    · rcases List.mem_append.mp first with failed | asked
      · exact Effect.opening?_of_isCalm (Link.calm_failures _ _ e failed)
      · exact Effect.opening?_of_isCalm (onward.calm e asked)
    · exact Effect.opening?_of_isCalm (moves.calm (by simp) e later)
  · show (Link.failures _ _ ++ es ++ t.effects).filterMap Effect.reply? = []
    rw [List.filterMap_append, List.filterMap_append,
      Link.filterMap_failures Link.overlooks_reply.failed, onward.replies, moves.replies]
    rfl
  · cases (onward.stays phase).trans (moves.stays (by simp)) with
    | here epoch _ parser => exact ⟨epoch, parser⟩
    | gone _ none =>
      rw [show t.link.held? = .none from none] at held
      cases held

end

theorem Heard.attach (heard : Heard role config seen s) (sound : s.Sound)
    (running : s.link.stopped = false) {epoch : Nat} {socket : Socket} {sentinel? : Option Nat}
    (admits : s.Admits (.attached epoch socket sentinel?)) :
    Heard role config (seen ++ [.attached epoch socket sentinel?])
      (s.next (.attached epoch socket sentinel?)) := by
  obtain ⟨rfl, phase, free, _⟩ := sound.kept.current_of_call admits
  obtain ⟨es, effects, calm, quiet, inUse⟩ := step_attached running phase socket sentinel?
  have openings := openings_next_of_attached effects calm
  have sittings := sittings_next_of_attached effects calm
  have bytes (n : Nat) : bytesOf n (seen ++ [.attached s.link.epoch socket sentinel?])
      = bytesOf n seen := by
    rw [bytesOf_append]
    exact List.append_nil _
  refine ⟨heard.same_next sound.settled _, fun n read => ?_, ?_, fun x hx o opening => ?_,
    fun _ held => ?_⟩
  · rw [bytes] at read
    obtain ⟨o, ho, same⟩ := heard.read n read
    rw [openings]
    exact ⟨o, List.mem_append_left _ ho, same⟩
  · have older := sound.kept.holds
    rw [free] at older
    rw [openings, List.map_append, List.pairwise_append]
    refine ⟨heard.ordered, List.pairwise_singleton _ _, fun n hn n' hn' => ?_⟩
    obtain ⟨o, ho, rfl⟩ := List.mem_map.mp hn
    rw [List.mem_singleton.mp hn']
    exact older o ho
  · rw [repliesOf, bytes]
    rw [sittings] at hx
    rcases List.mem_cons.mp hx with rfl | before
    · rw [Sitting.replies, quiet]
      exact List.nil_prefix
    · exact heard.heard x before o opening
  · obtain ⟨current, parser⟩ := inUse held
    have unread := heard.unread_of_free sound.kept free
    rw [show (s.next _).link.epoch = _ from current, show (s.next _).link.parser = _ from parser,
      sittings, repliesOf, bytes, unread]
    exact ⟨rfl, rfl, quiet⟩

/-! ## a chunk of the socket in use -/

theorem bytesOf_data (epoch : Nat) (chunk : Bytes) :
    bytesOf epoch [.data epoch chunk] = [chunk] :=
  List.filterMap_cons_some (if_pos rfl)

theorem bytesOf_data_of_ne {epoch n : Nat} (other : n ≠ epoch) (chunk : Bytes) :
    bytesOf epoch [.data n chunk] = [] :=
  List.filterMap_cons_none (if_neg other)

/-- one more chunk, after chunks in which there was no fault -/
theorem repliesOf_data (role : Role) (config : Config) {epoch : Nat}
    (sound : (Parser.empty.feedChunks (bytesOf epoch seen)).fault = none) (chunk : Bytes) :
    repliesOf role config (seen ++ [.data epoch chunk]) epoch = repliesOf role config seen epoch ++
      ((Parser.empty.feedChunks (bytesOf epoch seen)).parser.feed chunk).replies.filter
        (Link.start role config).hears := by
  rw [repliesOf, bytesOf_append, bytesOf_data, Parser.feedChunks_snoc sound, List.filter_append]
  rfl

theorem Heard.data (heard : Heard role config seen s) (sound : s.Sound)
    (running : s.link.stopped = false) (held : s.link.held?.isSome = true) (chunk : Bytes) :
    Heard role config (seen ++ [.data s.link.epoch chunk])
      (s.next (.data s.link.epoch chunk)) := by
  have step : s.link.step (.data s.link.epoch chunk) = s.link.receive chunk := by
    rw [Link.step_of_running running]
    exact if_pos rfl
  obtain ⟨fault, parser, latest⟩ := heard.now running held
  obtain ⟨socket, holds⟩ := Option.isSome_iff_exists.mp held
  obtain ⟨o, opening, current, _⟩ := sound.kept.latest holds
  obtain ⟨met, sub, ⟨moves, settled⟩, whole⟩ := Link.receive_moves sound.settled chunk
  have quiet := Intake.quiet_replies met
  have calm : ∀ e ∈ (s.link.step (.data s.link.epoch chunk)).effects, e.opening? = none := by
    rw [step]
    exact fun e he => Effect.opening?_of_isCalm (moves.calm quiet e he)
  have openings := openings_next_of_calm calm
  have sittings := sittings_next_of_calm calm
  have hears : s.link.hears = (Link.start role config).hears := Link.hears_of_same heard.same
  have replies : (s.link.receive chunk).effects.filterMap Effect.reply?
      = met.filter (Link.start role config).hears := by
    rw [moves.replies_met, ← hears]
    rfl
  have more := repliesOf_data role config fault chunk
  rw [parser] at more
  have now' : ((Sittings.of s.past).latest.extend (s.link.receive chunk).effects).replies
      = repliesOf role config seen s.link.epoch
        ++ met.filter (Link.start role config).hears := by
    rw [Sitting.replies_extend, latest, replies]
  rw [step] at sittings
  refine ⟨heard.same_next sound.settled _, fun n read => ?_, ?_, fun x hx o' opening' => ?_,
    fun _ held' => ?_⟩
  · rw [openings]
    by_cases this : n = s.link.epoch
    · have inUse : o ∈ s.openings := by
        rw [Sittings.latest_of] at opening
        exact List.mem_of_getLast? opening
      exact ⟨o, inUse, current.trans this.symm⟩
    · rw [bytesOf_append, bytesOf_data_of_ne (Ne.symm this), List.append_nil] at read
      exact heard.read n read
  · rw [openings]
    exact heard.ordered
  · rw [sittings] at hx
    rcases List.mem_cons.mp hx with rfl | before
    · have same : o' = o := Option.some.inj (opening'.symm.trans opening)
      rw [same, current, more, now']
      exact (List.prefix_append_right_inj _).mpr (sub.filter _)
    · exact (heard.heard x (List.mem_cons_of_mem _ before) o' opening').trans
        (repliesOf_mono role config seen _ o'.epoch)
  · have link : (s.next (.data s.link.epoch chunk)).link = (s.link.receive chunk).link := by
      show (s.link.step _).link = _
      rw [step]
    rw [link] at held' ⊢
    cases moves.stays quiet with
    | gone _ none =>
      rw [none] at held'
      cases held'
    | here epoch _ parser' =>
      -- the socket is still the same, so all replies were met and the bytes are sound
      obtain ⟨rfl, sound'⟩ := whole epoch
      have same : (s.link.receive chunk).link.epoch = s.link.epoch := epoch
      rw [same, sittings, more, parser', bytesOf_append, bytesOf_data,
        Parser.feedChunks_snoc fault, parser]
      exact ⟨sound' (settled.active_of_held held'), rfl, now'⟩

/-! ## the other events -/

/-- only the socket brings replies, and only an attempt brings a socket -/
theorem plain_of_brings {l : Link} {ins : List Intake} (h : l.Brings e ins)
    (notSocket : ∀ epoch socket sentinel?, e ≠ .attached epoch socket sentinel?)
    (notBytes : ∀ epoch chunk, e ≠ .data epoch chunk) :
    (∀ n i, Intake.socket n i ∉ ins) ∧ ins.filterMap Intake.reply? = [] := by
  have plain_of_submits {c : Command} (h : l.Submits c ins) :
      (∀ n i, Intake.socket n i ∉ ins) ∧ ins.filterMap Intake.reply? = [] := by
    obtain ⟨c', _, rfl | ⟨_, rfl⟩⟩ := h
    · exact ⟨fun n i hi => by simp at hi, rfl⟩
    · exact ⟨fun n i hi => by simp at hi, rfl⟩
  cases e with
  | send c => exact plain_of_submits h
  | disconnect t => exact plain_of_submits h
  | attached epoch socket sentinel? => exact absurd rfl (notSocket epoch socket sentinel?)
  | data epoch chunk => exact absurd rfl (notBytes epoch chunk)
  | retry =>
    rcases h with rfl | ⟨_, rfl⟩
    · exact ⟨(fun n i hi => nomatch hi), rfl⟩
    · exact ⟨fun n i hi => by simp at hi, rfl⟩
  | _ =>
    subst h
    exact ⟨(fun n i hi => nomatch hi), rfl⟩

theorem read_of_admits (admits : s.Admits e) {epoch : Nat} (read : bytesOf epoch [e] ≠ []) :
    ∃ o ∈ s.openings, o.epoch = epoch := by
  cases e with
  | data n chunk =>
    by_cases same : n = epoch
    · rw [← same]
      exact admits
    · exact absurd (bytesOf_data_of_ne same chunk) read
  | _ => exact absurd rfl read

/-- a link without a socket gets none unless one comes into use -/
theorem Kept.free_of_calm (kept : s.Kept) (kept' : (s.next e).Kept) (free : s.link.held? = none)
    (calm : ∀ e' ∈ (s.link.step e).effects, e'.opening? = none) :
    (s.next e).link.held? = none := by
  have before := kept.sockets
  have after := kept'.sockets
  rw [openings_next_of_calm calm, before, free] at after
  have size := congrArg List.length after
  have past : (s.next e).past.filterMap Effect.released?
      = s.past.filterMap Effect.released? ++ (s.link.step e).effects.filterMap Effect.released? :=
    List.filterMap_append
  rw [past, List.length_append, List.length_append, List.length_append] at size
  cases held : (s.next e).link.held? with
  | none => rfl
  | some socket =>
    rw [held, Option.toList_none, Option.toList_some, List.length_nil, List.length_singleton]
      at size
    omega

/-- an event that is neither a socket nor bytes, on a link that runs -/
theorem Heard.other (heard : Heard role config seen s) (sound : s.Sound)
    (running : s.link.stopped = false) (admits : s.Admits e)
    (notSocket : ∀ epoch socket sentinel?, e ≠ .attached epoch socket sentinel?)
    (notBytes : ∀ epoch chunk, e ≠ .data epoch chunk) :
    Heard role config (seen ++ [e]) (s.next e) := by
  obtain ⟨ins, brings, moves, _⟩ := Link.step_leads sound.settled e
  obtain ⟨sockets, replies⟩ := plain_of_brings brings notSocket notBytes
  have calm := moves.openings sockets
  have quiet : (s.link.step e).effects.filterMap Effect.reply? = [] := by
    rw [moves.replies, replies]
    rfl
  have unread (epoch : Nat) : bytesOf epoch [e] = [] := by
    cases e with
    | data n chunk => exact absurd rfl (notBytes n chunk)
    | _ => rfl
  refine heard.calm sound.settled calm quiet (fun epoch read => absurd (unread epoch) read) ?_
  intro running' held'
  have lasting : e ≠ .shutdown := by
    rintro rfl
    have stopped := Link.step_shutdown_stopped s.link
    rw [show (s.link.step .shutdown).link.stopped = false from running'] at stopped
    cases stopped
  cases free : s.link.held? with
  | none =>
    rw [sound.kept.free_of_calm (sound.next running admits lasting).kept free calm] at held'
    cases held'
  | some socket =>
    have held : s.link.held?.isSome = true := by rw [free]; rfl
    have none : e.outcome? = none := by
      cases e with
      | attached epoch n i => exact absurd rfl (notSocket epoch n i)
      | connectFailed epoch =>
        have under : epoch ∈ s.calls := admits
        rw [sound.kept.calls_of_held held] at under
        cases under
      | _ => rfl
    cases moves.stays (quiet_of_brings brings (sound.kept.busy_of_held held) none notBytes) with
    | here epoch _ parser => exact ⟨running, rfl, epoch, parser, unread _⟩
    | gone _ lost =>
      rw [show (s.next e).link.held? = .none from lost] at held'
      cases held'

/-- an event on a link that has stopped -/
theorem Heard.stopped (heard : Heard role config seen s) (settled : s.link.Settled)
    (stopped : s.link.stopped = true) (admits : s.Admits e) :
    Heard role config (seen ++ [e]) (s.next e) := by
  have step : s.link.step e = s.link.stoppedStep e := Link.step_of_stopped stopped e
  have same : (s.next e).link = s.link := Link.run_of_stopped stopped [e]
  refine heard.calm settled ?_ ?_ (fun epoch read => read_of_admits admits read) ?_
  · rw [step]
    cases e <;> simp [Link.stoppedStep, Link.failures, Turn.of, Effect.opening?]
  · rw [step]
    cases e <;> rfl
  · intro running
    rw [same, stopped] at running
    cases running

theorem Heard.next (heard : Heard role config seen s) (settled : s.link.Settled)
    (sound : s.link.stopped = false → s.Sound) (admits : s.Admits e) :
    Heard role config (seen ++ [e]) (s.next e) := by
  cases running : s.link.stopped with
  | true => exact heard.stopped settled running admits
  | false =>
    have sound := sound running
    by_cases socket : ∃ epoch n i, e = .attached epoch n i
    · obtain ⟨epoch, n, i, rfl⟩ := socket
      exact heard.attach sound running admits
    · by_cases bytes : ∃ epoch chunk, e = .data epoch chunk
      · obtain ⟨epoch, chunk, rfl⟩ := bytes
        by_cases current : s.link.epoch = epoch
        · subst current
          cases free : s.link.held? with
          | none =>
            -- no socket of this epoch has come into use
            obtain ⟨o, ho, same⟩ := admits
            have holds := sound.kept.holds
            rw [free] at holds
            have lt := holds o ho
            omega
          | some socket => exact heard.data sound running (by rw [free]; rfl) chunk
        · have step : s.link.step (.data epoch chunk) = .of s.link := by
            rw [Link.step_of_running running]
            exact if_neg current
          refine heard.calm settled ?_ ?_ (fun n read => read_of_admits admits read) ?_
          · rw [step]
            exact fun e he => nomatch he
          · rw [step]
            rfl
          · intro _ held
            have same : (s.next (.data epoch chunk)).link = s.link := by
              show (s.link.step _).link = _
              rw [step]
              rfl
            rw [same] at held ⊢
            exact ⟨running, held, rfl, rfl, bytesOf_data_of_ne (Ne.symm current) chunk⟩
      · refine heard.other sound running admits ?_ ?_
        · rintro epoch n i rfl
          exact socket ⟨epoch, n, i, rfl⟩
        · rintro epoch chunk rfl
          exact bytes ⟨epoch, chunk, rfl⟩

/-- **Every reply is heard on its own socket, in order, and none is skipped.** -/
theorem heard_of_plays (role : Role) (config : Config) {events : List Event}
    (plays : (start role config).Plays events) :
    Heard role config events ((start role config).run events) := by
  have general (s : Scene) (seen events : List Event) (plays : s.Plays events)
      (settled : s.link.Settled) (sound : s.link.stopped = false → s.Sound)
      (heard : Heard role config seen s) : Heard role config (seen ++ events) (s.run events) := by
    induction events generalizing s seen with
    | nil =>
      rw [List.append_nil]
      exact heard
    | cons e rest ih =>
      obtain ⟨admits, later⟩ := plays
      have settled' : (s.next e).link.Settled := by
        obtain ⟨_, _, _, settled'⟩ := Link.step_leads settled e
        exact settled'
      have sound' (running : (s.next e).link.stopped = false) : (s.next e).Sound := by
        have here : ((s.next e).run []).link.stopped = false := running
        obtain ⟨before, lasting⟩ := running_of_next here
        exact (sound before).next before admits lasting
      have step := ih (s.next e) (seen ++ [e]) later settled' sound'
        (heard.next settled sound admits)
      rw [List.append_assoc] at step
      exact step
  exact general _ [] events plays (Link.settled_start role config)
    (fun _ => sound_start role config) (heard_start role config)

end
end Scene
end RespLink
