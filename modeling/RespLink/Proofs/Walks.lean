import RespLink.Link.Attempt
import RespLink.Proofs.Scanning
import Mathlib.Logic.Function.Iterate

/-!
# Walks over a network

A network says what becomes of each dial and what each Sentinel sends, and when.  A walk over it is
told what comes in before its time limit is over, and that the limit is over if nothing does.

* `Inquiry.Gives`   the address that the pieces of an answer lead to: that of the first reply,
                    unless a fault comes before it or in its piece;
* `Net`             how a network behaves towards a walk;
* `Net.Names`, `Net.Leads`   what it takes for a Sentinel to give an address in time, and for that
                    address to be dialled in time;
* `Tour`            a walk on its way over a network, with all that it has dialled;
* `Tour.settles_of_asking`   a Sentinel that is asked gives the address that it yields, or none;
* `Tour.leads_or_passes`   a Sentinel leads to a stream, or the next one is asked;
* `Tour.Over`       where a walk ends, and `over_of_ask`, that it does so from any Sentinel on;
* `walk_ends`       what follows for every network.
-/

namespace RespLink

/-! ## first replies -/

namespace Inquiry

/-- there is neither a complete reply nor a fault in the bytes -/
def Pending (bs : Bytes) : Prop := (Fed.of bs).replies = [] ∧ (Fed.of bs).fault = none

/-- of the pieces that follow the bytes, one is the first to bring a reply or a fault: it brings no
fault, and this reply comes first -/
def FirstReply (bs : Bytes) (pieces : List Bytes) (reply : Reply) : Prop :=
  ∃ before piece later, pieces = before ++ piece :: later ∧ Pending (bs ++ before.flatten) ∧
    (Fed.of (bs ++ before.flatten ++ piece)).fault = none ∧
    (Fed.of (bs ++ before.flatten ++ piece)).replies.head? = some reply

/-- the first reply is the address of a master -/
def Gives (bs : Bytes) (pieces : List Bytes) (peer : Endpoint) : Prop :=
  ∃ reply, FirstReply bs pieces reply ∧ masterAddress reply = .ok peer

section
variable {bs more piece : Bytes} {pieces rest : List Bytes} {reply : Reply} {peer : Endpoint}

theorem pending_nil : Pending [] := ⟨rfl, rfl⟩

theorem Pending.of_append (h : Pending (bs ++ more)) : Pending bs := by
  obtain ⟨replies, fault⟩ := h
  constructor
  · rw [Fed.of_append] at replies
    exact (List.append_eq_nil_iff.mp replies).1
  · cases early : (Fed.of bs).fault with
    | none => rfl
    | some why =>
      rw [(Fed.of_append_of_fault early more).2] at fault
      cases fault

/-- a parser with nothing to show goes on as a fresh one does over all the bytes -/
theorem Pending.feed (h : Pending bs) (piece : Bytes) :
    (Fed.of bs).parser.feed piece = Fed.of (bs ++ piece) := by
  rw [Fed.of_append, Fed.feed, h.1]
  rfl

theorem not_firstReply_nil : ¬ FirstReply bs [] reply := by
  rintro ⟨before, piece, later, split, _⟩
  exact List.append_ne_nil_of_right_ne_nil before (List.cons_ne_nil piece later) split.symm

theorem firstReply_cons_of_pending (h : Pending (bs ++ piece)) :
    FirstReply bs (piece :: rest) reply ↔ FirstReply (bs ++ piece) rest reply := by
  constructor
  · rintro ⟨before, last, later, split, pending, fault, first⟩
    cases before with
    | nil =>
      obtain ⟨rfl, rfl⟩ := List.cons.inj split
      rw [List.flatten_nil, List.append_nil, h.1] at first
      cases first
    | cons front before =>
      obtain ⟨rfl, rfl⟩ := List.cons.inj split
      rw [List.flatten_cons, ← List.append_assoc] at pending fault first
      exact ⟨before, last, later, rfl, pending, fault, first⟩
  · rintro ⟨before, last, later, rfl, pending, fault, first⟩
    refine ⟨piece :: before, last, later, rfl, ?_⟩
    rw [List.flatten_cons, ← List.append_assoc]
    exact ⟨pending, fault, first⟩

theorem firstReply_cons_of_settled (before : Pending bs) (h : ¬ Pending (bs ++ piece)) :
    FirstReply bs (piece :: rest) reply ↔
      (Fed.of (bs ++ piece)).fault = none ∧
        (Fed.of (bs ++ piece)).replies.head? = some reply := by
  constructor
  · rintro ⟨before, last, later, split, pending, fault, first⟩
    cases before with
    | nil =>
      obtain ⟨rfl, rfl⟩ := List.cons.inj split
      rw [List.flatten_nil, List.append_nil] at fault first
      exact ⟨fault, first⟩
    | cons front before =>
      obtain ⟨rfl, rfl⟩ := List.cons.inj split
      rw [List.flatten_cons, ← List.append_assoc] at pending
      exact absurd pending.of_append h
  · rintro ⟨fault, first⟩
    refine ⟨[], piece, rest, rfl, ?_⟩
    rw [List.flatten_nil, List.append_nil]
    exact ⟨before, fault, first⟩

/-- what reading some pieces comes to: nothing yet, or the answer, whatever follows them -/
inductive ReadsTo (socket : Nat) (bs : Bytes) (pieces : List Bytes) : Inquiry × List Action → Prop
  | goesOn (pending : Pending (bs ++ pieces.flatten))
    (later : ∀ rest peer, Gives bs (pieces ++ rest) peer ↔ Gives (bs ++ pieces.flatten) rest peer) :
    ReadsTo socket bs pieces (reading socket (Fed.of (bs ++ pieces.flatten)).parser, [])
  | ends (answer) (gives : ∀ rest peer, answer = .ok peer ↔ Gives bs (pieces ++ rest) peer) :
    ReadsTo socket bs pieces (finish socket answer)

/-- a piece with nothing to show leaves it to the pieces after it -/
theorem ReadsTo.cons {socket : Nat} {out : Inquiry × List Action} (pending : Pending (bs ++ piece))
    (h : ReadsTo socket (bs ++ piece) pieces out) : ReadsTo socket bs (piece :: pieces) out := by
  have later (rest : List Bytes) (peer : Endpoint) :
      Gives bs (piece :: pieces ++ rest) peer ↔ Gives (bs ++ piece) (pieces ++ rest) peer :=
    exists_congr fun _ => and_congr_left fun _ => firstReply_cons_of_pending pending
  have flat : bs ++ piece ++ pieces.flatten = bs ++ (piece :: pieces).flatten := by
    rw [List.flatten_cons, List.append_assoc]
  cases h with
  | goesOn still onward =>
    rw [flat] at still onward ⊢
    exact .goesOn still fun more peer => (later more peer).trans (onward more peer)
  | ends answer gives =>
    exact .ends answer fun more peer => (gives more peer).trans (later more peer).symm

/-- a piece with a reply or a fault settles the answer -/
theorem readsTo_of_settled (socket : Nat) (h : Pending bs) (settled : ¬ Pending (bs ++ piece))
    (pieces : List Bytes) :
    ReadsTo socket bs (piece :: pieces) (read socket (Fed.of bs).parser (piece :: pieces)) := by
  have decides (rest : List Bytes) (peer : Endpoint) :
      Gives bs (piece :: pieces ++ rest) peer ↔ ∃ reply, ((Fed.of (bs ++ piece)).fault = none ∧
        (Fed.of (bs ++ piece)).replies.head? = some reply) ∧ masterAddress reply = .ok peer :=
    exists_congr fun _ => and_congr_left fun _ => firstReply_cons_of_settled h settled
  rw [read, Parser.feedAll, h.feed]
  cases fault : (Fed.of (bs ++ piece)).fault with
  | some why =>
    refine .ends _ fun rest peer => ?_
    rw [decides, fault]
    simp
  | none =>
    cases replies : (Fed.of (bs ++ piece)).replies with
    | nil => exact absurd ⟨replies, fault⟩ settled
    | cons reply others =>
      refine .ends _ fun rest peer => ?_
      rw [decides, fault, replies]
      simp

theorem readsTo_read (socket : Nat) (h : Pending bs) (pieces : List Bytes) :
    ReadsTo socket bs pieces (read socket (Fed.of bs).parser pieces) := by
  induction pieces generalizing bs with
  | nil =>
    have same : bs ++ ([] : List Bytes).flatten = bs := List.append_nil bs
    have stays : ReadsTo socket bs [] (reading socket (Fed.of (bs ++ [].flatten)).parser, []) :=
      .goesOn (same.symm ▸ h) fun rest peer => by rw [same, List.nil_append]
    rw [same] at stays
    exact stays
  | cons piece pieces ih =>
    by_cases pending : Pending (bs ++ piece)
    · rw [read, Parser.feedAll, h.feed, pending.2, pending.1]
      exact (ih pending).cons pending
    · exact readsTo_of_settled socket h pending pieces

end
end Inquiry

/-! ## networks -/

namespace Net

/-- what becomes of a dial, and after how long -/
inductive Fate where
  | hangs
  | refused (wait : Nat) (cause : IoError)
  | accepted (wait : Nat) (socket : Socket)

/-- what comes after all that a peer sends -/
inductive Finish where
  | silent
  | ended (wait : Nat)
  | broken (wait : Nat) (cause : IoError)

/-- how a Sentinel behaves when it is asked -/
structure Talk where
  fate : Fate
  /-- what it sends, each chunk a while after the one before -/
  chunks : List (Nat × Bytes)
  finish : Finish

/-- what the dialler is told; a stream that opens brings what is read from it -/
def Fate.signals (stream : List (Nat × Signal)) : Fate → List (Nat × Signal)
  | hangs => []
  | refused wait cause => [(wait, .refused cause)]
  | accepted wait socket => (wait, .connected socket) :: stream

def Finish.signals : Finish → List (Nat × Signal)
  | silent => []
  | ended wait => [(wait, .ended)]
  | broken wait cause => [(wait, .broken cause)]

/-- what is read from a stream -/
def stream (chunks : List (Nat × Bytes)) (finish : Finish) : List (Nat × Signal) :=
  chunks.map (fun c => (c.1, .heard c.2)) ++ finish.signals

def Talk.signals (talk : Talk) : List (Nat × Signal) :=
  talk.fate.signals (stream talk.chunks talk.finish)

end Net

/-- how a network behaves towards a walk; the Sentinels are counted in the order of the walk -/
structure Net where
  /-- towards the dial of a Sentinel, and after it -/
  sentinel : Nat → Endpoint → Net.Talk
  /-- towards the dial of the address that a Sentinel reported -/
  master : Nat → Endpoint → Net.Fate
  /-- what comes at the very instant at which a time limit is over comes in time -/
  prompt : Bool

namespace Net

/-- so much time is within the limit -/
def Allows (net : Net) (limit time : Nat) : Prop := time < limit ∨ net.prompt = true ∧ time = limit

instance (net : Net) (limit time : Nat) : Decidable (net.Allows limit time) :=
  inferInstanceAs (Decidable (time < limit ∨ net.prompt = true ∧ time = limit))

/-- the dial is accepted within the limit -/
def Opens (net : Net) (limit : Nat) (fate : Fate) (socket : Socket) : Prop :=
  ∃ wait, fate = .accepted wait socket ∧ net.Allows limit wait

/-- how long it takes until all these chunks have come -/
def span : List (Nat × Bytes) → Nat
  | [] => 0
  | (wait, _) :: rest => wait + span rest

/-- what is heard of the chunks within the limit says that this is the address -/
def Hears (net : Net) (limit : Nat) (bs : Bytes) (chunks : List (Nat × Bytes))
    (peer : Endpoint) : Prop :=
  ∃ heard late, chunks = heard ++ late ∧ net.Allows limit (span heard) ∧
    Inquiry.Gives bs (heard.flatMap fun c => Bytes.pieces Inquiry.readSize c.2) peer

/-- the dial is accepted, the question goes out and the address is heard, all of it within the
limit -/
def Yields (net : Net) (limit : Nat) (talk : Talk) (peer : Endpoint) : Prop :=
  ∃ wait socket heard late, talk.fate = .accepted wait socket ∧
    socket.write.fault? = none ∧ talk.chunks = heard ++ late ∧
    net.Allows limit (wait + span heard) ∧
    Inquiry.Gives [] (heard.flatMap fun c => Bytes.pieces Inquiry.readSize c.2) peer

/-- the Sentinel of this index yields an address within its time limit -/
def Names (net : Net) (config : Config) (sentinels : Sentinels) (i : Nat)
    (peer : Endpoint) : Prop :=
  ∃ sentinel, sentinels[i]? = some sentinel ∧
    net.Yields config.sentinelTimeout (net.sentinel i sentinel) peer

/-- and the address can be dialled within the connect timeout -/
def Leads (net : Net) (config : Config) (sentinels : Sentinels) (i : Nat) (socket : Socket) :
    Prop :=
  ∃ peer, net.Names config sentinels i peer ∧
    net.Opens config.connectTimeout (net.master i peer) socket

/-- what is written to the Sentinel of this index: the question, once, if its dial is accepted
within the limit -/
def asks (net : Net) (config : Config) (i : Nat) (sentinel : Endpoint) : List Action :=
  match (net.sentinel i sentinel).fate with
  | .accepted wait socket =>
    if net.Allows config.sentinelTimeout wait then Inquiry.writing config.master socket else []
  | _ => []

section
variable {net : Net} {limit wait more : Nat} {bs chunk : Bytes} {chunks : List (Nat × Bytes)}
  {peer : Endpoint}

theorem names_iff {config : Config} {sentinels : Sentinels} {i : Nat} {sentinel : Endpoint}
    (here : sentinels[i]? = some sentinel) : net.Names config sentinels i peer ↔
      net.Yields config.sentinelTimeout (net.sentinel i sentinel) peer := by
  rw [Names, here]
  exact ⟨fun ⟨_, same, yields⟩ => by cases same; exact yields, fun yields => ⟨_, rfl, yields⟩⟩

theorem Allows.of_le (h : net.Allows limit more) (less : wait ≤ more) : net.Allows limit wait := by
  rcases h with before | ⟨prompt, rfl⟩
  · exact .inl (Nat.lt_of_le_of_lt less before)
  · rcases Nat.lt_or_eq_of_le less with before | same
    · exact .inl before
    · exact .inr ⟨prompt, same⟩

/-- time that has passed is taken off the limit -/
theorem Allows.sub_iff (h : net.Allows limit wait) :
    net.Allows (limit - wait) more ↔ net.Allows limit (wait + more) := by
  have within : wait ≤ limit := by
    rcases h with before | ⟨_, same⟩
    · exact Nat.le_of_lt before
    · exact Nat.le_of_eq same
  have before : more < limit - wait ↔ wait + more < limit := by omega
  have same : more = limit - wait ↔ wait + more = limit := by omega
  rw [Allows, Allows, before, same]

theorem not_hears_nil : ¬ net.Hears limit bs [] peer := by
  rintro ⟨heard, late, split, _, reply, first, _⟩
  obtain ⟨rfl, _⟩ := List.append_eq_nil_iff.mp split.symm
  exact Inquiry.not_firstReply_nil first

/-- the first chunk has to be heard in time, and the others in the time that is left -/
theorem hears_cons : net.Hears limit bs ((wait, chunk) :: chunks) peer ↔
    net.Allows limit wait ∧ ∃ heard late, chunks = heard ++ late ∧
      net.Allows (limit - wait) (span heard) ∧
      Inquiry.Gives bs (Bytes.pieces Inquiry.readSize chunk ++
        heard.flatMap fun c => Bytes.pieces Inquiry.readSize c.2) peer := by
  constructor
  · rintro ⟨heard, late, split, allows, gives⟩
    cases heard with
    | nil =>
      obtain ⟨_, first, _⟩ := gives
      exact absurd first Inquiry.not_firstReply_nil
    | cons c heard =>
      obtain ⟨rfl, rfl⟩ := List.cons.inj split
      have early := Allows.of_le allows (Nat.le_add_right wait (span heard))
      exact ⟨early, heard, late, rfl, early.sub_iff.mpr allows, gives⟩
  · rintro ⟨early, heard, late, rfl, allows, gives⟩
    exact ⟨(wait, chunk) :: heard, late, rfl, early.sub_iff.mp allows, gives⟩

/-- as long as nothing can be made of the bytes it is for the other chunks to say -/
theorem hears_cons_of_pending (early : net.Allows limit wait)
    (later : ∀ rest, Inquiry.Gives bs (Bytes.pieces Inquiry.readSize chunk ++ rest) peer ↔
      Inquiry.Gives (bs ++ chunk) rest peer) :
    net.Hears limit bs ((wait, chunk) :: chunks) peer ↔
      net.Hears (limit - wait) (bs ++ chunk) chunks peer := by
  rw [hears_cons]
  constructor
  · rintro ⟨_, heard, late, split, allows, gives⟩
    exact ⟨heard, late, split, allows, (later _).mp gives⟩
  · rintro ⟨heard, late, split, allows, gives⟩
    exact ⟨early, heard, late, split, allows, (later _).mpr gives⟩

/-- a chunk that settles the answer does so whatever comes behind it -/
theorem hears_cons_of_settled (early : net.Allows limit wait) {answer : Except Error Endpoint}
    (gives : ∀ rest, answer = .ok peer ↔
      Inquiry.Gives bs (Bytes.pieces Inquiry.readSize chunk ++ rest) peer) :
    net.Hears limit bs ((wait, chunk) :: chunks) peer ↔ answer = .ok peer := by
  rw [hears_cons]
  constructor
  · rintro ⟨_, heard, _, _, _, given⟩
    exact (gives _).mpr given
  · intro is
    exact ⟨early, [], chunks, rfl, early.sub_iff.mpr early, (gives _).mp is⟩

end

/-- what the network does about a dial of a walk -/
def signals (net : Net) : Walk → Endpoint → List (Nat × Signal)
  | .asking i _ _, sentinel => (net.sentinel i sentinel).signals
  | .calling i _, peer => (net.master i peer).signals []
  | _, _ => []

end Net

/-! ## tours -/

structure Tour where
  walk : Walk
  /-- what is left of the time limit -/
  left : Nat
  /-- what the network tells next, each signal a while after the one before -/
  coming : List (Nat × Signal)
  /-- what was dialled and what was written, in order -/
  deeds : List Action

namespace Tour

def dials (t : Tour) : List Endpoint := t.deeds.filterMap Action.dial?

section
variable (net : Net) (config : Config)

def obey (t : Tour) : Action → Tour
  | .limit duration => { t with left := duration }
  | .dial peer => { t with coming := net.signals t.walk peer, deeds := t.deeds ++ [.dial peer] }
  | .close _ => { t with coming := [] }
  | .write socket frame => { t with deeds := t.deeds ++ [.write socket frame] }

/-- goes on with a turn of the walk -/
def goOn (t : Tour) (turn : Walk × List Action) : Tour :=
  turn.2.foldl (obey net) { t with walk := turn.1 }

def start (sentinels : Sentinels) : Tour :=
  goOn net ⟨.exhausted, 0, [], []⟩ (Walk.start config sentinels)

def tell (t : Tour) (x : Signal) : Tour := goOn net t (t.walk.step config x)

/-- the next signal comes in, if it does so within the time limit; else that is over -/
def next (t : Tour) : Tour :=
  match t.coming with
  | (wait, x) :: rest =>
    if net.Allows t.left wait then
      tell net config { t with left := t.left - wait, coming := rest } x
    else tell net config { t with coming := [] } .elapsed
  | [] => tell net config t .elapsed

def after (n : Nat) (t : Tour) : Tour := (next net config)^[n] t

/-- some time later -/
def Comes (t u : Tour) : Prop := ∃ n, after net config n t = u

end

section
variable {net : Net} {config : Config} {t u v : Tour}

theorem Comes.refl (t : Tour) : Comes net config t t := ⟨0, rfl⟩

theorem comes_next (net : Net) (config : Config) (t : Tour) :
    Comes net config t (next net config t) := ⟨1, rfl⟩

theorem Comes.trans (first : Comes net config t u) (second : Comes net config u v) :
    Comes net config t v := by
  obtain ⟨n, rfl⟩ := first
  obtain ⟨m, rfl⟩ := second
  exact ⟨m + n, Function.iterate_add_apply _ m n t⟩

/-! ## signals -/

theorem next_of_early (config : Config) {wait : Nat} {x : Signal} {rest : List (Nat × Signal)}
    (coming : t.coming = (wait, x) :: rest) (early : net.Allows t.left wait) :
    next net config t = tell net config { t with left := t.left - wait, coming := rest } x := by
  rw [next, coming]
  exact if_pos early

/-- nothing comes in before the time limit is over -/
def Late (net : Net) (t : Tour) : Prop :=
  ∀ wait x rest, t.coming = (wait, x) :: rest → ¬ net.Allows t.left wait

theorem next_of_late (late : t.Late net) :
    next net config t = tell net config { t with coming := [] } .elapsed := by
  rw [next]
  split
  · next wait x rest coming => exact if_neg (late wait x rest coming)
  · next coming => rw [← coming]

theorem late_of_cons {wait : Nat} {x : Signal} {rest : List (Nat × Signal)}
    (coming : t.coming = (wait, x) :: rest) (late : ¬ net.Allows t.left wait) : t.Late net := by
  intro wait' x' rest' is
  rw [coming] at is
  cases is
  exact late

/-- what a dial comes to: a stream in time, or a failure -/
inductive Meets (net : Net) (config : Config) (fate : Net.Fate) (stream : List (Nat × Signal))
    (t : Tour) : Prop
  | opens (wait socket) (accepted : fate = .accepted wait socket) (early : net.Allows t.left wait)
    (next : next net config t =
      tell net config { t with left := t.left - wait, coming := stream } (.connected socket))
  | fails (x left coming) (bad : x = .elapsed ∨ ∃ cause, x = .refused cause)
    (never : ∀ wait socket, fate = .accepted wait socket → ¬ net.Allows t.left wait)
    (next : next net config t = tell net config { t with left := left, coming := coming } x)

theorem meets_of_coming {fate : Net.Fate} {stream : List (Nat × Signal)}
    (coming : t.coming = fate.signals stream) : Meets net config fate stream t := by
  cases fate with
  | hangs =>
    have late : t.Late net := fun wait x rest is => by rw [coming] at is; cases is
    exact .fails .elapsed t.left [] (.inl rfl) nofun (next_of_late late)
  | refused wait cause =>
    by_cases early : net.Allows t.left wait
    · exact .fails _ _ _ (.inr ⟨cause, rfl⟩) nofun (next_of_early config coming early)
    · exact .fails .elapsed t.left [] (.inl rfl) nofun (next_of_late (late_of_cons coming early))
  | accepted wait socket =>
    by_cases early : net.Allows t.left wait
    · exact .opens wait socket rfl early (next_of_early config coming early)
    · refine .fails .elapsed t.left [] (.inl rfl) (fun wait' socket' is => ?_)
        (next_of_late (late_of_cons coming early))
      cases is
      exact early

/-! ## one Sentinel -/

/-- a tour whose inquiry has come to this answer goes on with it -/
def Settles (net : Net) (config : Config) (j : Nat) (rest : Sentinels) (deeds : List Action)
    (answer : Except Error Endpoint) (t : Tour) : Prop :=
  ∃ u : Tour, u.deeds = deeds ∧
    Comes net config t (goOn net u (Walk.proceed config j rest (.done answer)))

/-- what is done on a stream comes before the walk goes on -/
theorem goOn_append {actions : List Action} (quiet : ∀ a ∈ actions, a.dial? = none) (walk : Walk)
    (more : List Action) (t : Tour) :
    goOn net t (walk, actions ++ more) = goOn net (actions.foldl (obey net) t) (walk, more) := by
  induction actions generalizing t with
  | nil => rfl
  | cons a actions ih =>
    obtain ⟨first, others⟩ := List.forall_mem_cons.mp quiet
    rw [List.foldl_cons, ← ih others]
    cases a with
    | dial peer => cases first
    | write | close | limit => rfl

theorem settles_of_next {j : Nat} {rest : Sentinels} {q : Inquiry} {x : Signal}
    {answer : Except Error Endpoint} {actions : List Action} (walk : u.walk = .asking j q rest)
    (step : q.step x = (.done answer, actions)) (quiet : ∀ a ∈ actions, a.dial? = none)
    (next : next net config t = tell net config u x) :
    Settles net config j rest (actions.foldl (obey net) u).deeds answer t := by
  have come := comes_next net config t
  rw [next, tell, walk, Walk.step, step] at come
  dsimp only at come
  rw [goOn_append quiet] at come
  exact ⟨_, rfl, come⟩

/-- the stream is closed with the answer -/
theorem settles_of_finish {j socket : Nat} {rest : Sentinels} {q : Inquiry} {x : Signal}
    {answer : Except Error Endpoint} (walk : u.walk = .asking j q rest)
    (step : q.step x = Inquiry.finish socket answer)
    (next : next net config t = tell net config u x) :
    Settles net config j rest u.deeds answer t :=
  settles_of_next walk step (List.forall_mem_singleton.mpr rfl) next

theorem Settles.of_comes {j : Nat} {rest : Sentinels} {deeds : List Action}
    {answer : Except Error Endpoint} (first : Comes net config t u)
    (later : Settles net config j rest deeds answer u) :
    Settles net config j rest deeds answer t := by
  obtain ⟨v, same, come⟩ := later
  exact ⟨v, same, first.trans come⟩

/-- a Sentinel that is given up was to give no address -/
theorem exists_settles_of_error {j : Nat} {rest : Sentinels} {deeds : List Action} {err : Error}
    {said : Endpoint → Prop} (settles : Settles net config j rest deeds (.error err) t)
    (never : ∀ peer, ¬ said peer) :
    ∃ answer, Settles net config j rest deeds answer t ∧ ∀ peer, answer = .ok peer ↔ said peer :=
  ⟨.error err, settles, fun peer => ⟨nofun, fun is => absurd is (never peer)⟩⟩

/-- a stream that brings nothing more gives no address -/
theorem settles_of_silence (config : Config) {j socket : Nat} {parser : Parser} {rest : Sentinels}
    {finish : Net.Finish} (walk : t.walk = .asking j (.reading socket parser) rest)
    (coming : t.coming = finish.signals) :
    ∃ err, Settles net config j rest t.deeds (.error err) t := by
  have fails {err : Error} {x : Signal} {left : Nat} {later : List (Nat × Signal)}
      (step : (Inquiry.reading socket parser).step x = Inquiry.finish socket (.error err))
      (next : Tour.next net config t =
        tell net config { t with left := left, coming := later } x) :
      ∃ err, Settles net config j rest t.deeds (.error err) t :=
    ⟨err, settles_of_finish (u := { t with left := left, coming := later }) walk step next⟩
  by_cases late : t.Late net
  · exact fails rfl (next_of_late late)
  · obtain ⟨wait, x, more, coming', early⟩ : ∃ wait x more, t.coming = (wait, x) :: more ∧
        net.Allows t.left wait := by
      simpa [Late] using late
    have next := next_of_early config coming' early
    rw [coming] at coming'
    cases finish with
    | silent => cases coming'
    | ended => cases coming'; exact fails rfl next
    | broken => cases coming'; exact fails rfl next

/-- a chunk comes in time, and there is no answer yet -/
theorem comes_of_chunk (config : Config) {j socket wait : Nat} {parser parser' : Parser}
    {rest : Sentinels} {chunk : Bytes} {later : List (Nat × Signal)}
    (walk : t.walk = .asking j (.reading socket parser) rest)
    (coming : t.coming = (wait, .heard chunk) :: later) (early : net.Allows t.left wait)
    (told : Inquiry.read socket parser (Bytes.pieces Inquiry.readSize chunk) =
      (.reading socket parser', [])) :
    Comes net config t
      ⟨.asking j (.reading socket parser') rest, t.left - wait, later, t.deeds⟩ := by
  have step : t.walk.step config (.heard chunk) =
      (.asking j (.reading socket parser') rest, []) := by
    rw [walk, Walk.step, Inquiry.step, told]
    rfl
  have come := comes_next net config t
  rw [next_of_early config coming early, tell, step] at come
  exact come

/-- a Sentinel that is read from gives the address that is heard, or none -/
theorem settles_of_reading (config : Config) {j socket : Nat} {rest : Sentinels} {bs : Bytes}
    {chunks : List (Nat × Bytes)} {finish : Net.Finish} (pending : Inquiry.Pending bs)
    (walk : t.walk = .asking j (.reading socket (Fed.of bs).parser) rest)
    (coming : t.coming = Net.stream chunks finish) :
    ∃ answer, Settles net config j rest t.deeds answer t ∧
      ∀ peer, answer = .ok peer ↔ net.Hears t.left bs chunks peer := by
  -- each chunk takes its time off the limit and adds to the bytes that say nothing yet
  induction chunks generalizing t bs with
  | nil =>
    obtain ⟨err, settles⟩ := settles_of_silence config walk coming
    exact exists_settles_of_error settles fun _ => Net.not_hears_nil
  | cons c chunks ih =>
    obtain ⟨wait, chunk⟩ := c
    have coming : t.coming = (wait, .heard chunk) :: Net.stream chunks finish := coming
    by_cases early : net.Allows t.left wait
    · have reads := Inquiry.readsTo_read socket pending (Bytes.pieces Inquiry.readSize chunk)
      generalize told : Inquiry.read socket (Fed.of bs).parser _ = out at reads
      cases reads with
      | goesOn still later =>
        rw [Bytes.flatten_pieces] at still later told
        obtain ⟨answer, settles, hears⟩ := ih (t := ⟨.asking j (.reading socket _) rest,
          t.left - wait, Net.stream chunks finish, t.deeds⟩) still rfl rfl
        refine ⟨answer, settles.of_comes (comes_of_chunk config walk coming early told),
          fun peer => (hears peer).trans ?_⟩
        exact (Net.hears_cons_of_pending early fun more => later more peer).symm
      | ends answer gives =>
        have step : (Inquiry.reading socket (Fed.of bs).parser).step (.heard chunk) =
            Inquiry.finish socket answer := told
        exact ⟨answer, settles_of_finish (u := { t with
            left := t.left - wait, coming := Net.stream chunks finish }) walk step
            (next_of_early config coming early),
          fun peer => (Net.hears_cons_of_settled early fun more => gives more peer).symm⟩
    · have settles : Settles net config j rest t.deeds (.error .timeout) t :=
        settles_of_finish (u := { t with coming := [] }) walk rfl
          (next_of_late (late_of_cons coming early))
      exact exists_settles_of_error settles fun peer heard =>
        absurd (Net.hears_cons.mp heard).1 early

/-- a stream that takes the question is read from -/
theorem comes_of_question {j : Nat} {rest : Sentinels} {socket : Socket}
    (walk : u.walk = .asking j (.dialling config.master) rest)
    (sound : socket.write.fault? = none)
    (next : next net config t = tell net config u (.connected socket)) :
    Comes net config t { u with
      walk := .asking j (.reading socket.number .empty) rest
      deeds := u.deeds ++ Inquiry.writing config.master socket } := by
  have step : u.walk.step config (.connected socket) =
      (.asking j (.reading socket.number .empty) rest, Inquiry.writing config.master socket) := by
    rw [walk, Walk.step, Inquiry.step, Inquiry.ask_of_sound sound]
    exact Prod.ext rfl (List.append_nil _)
  have come := comes_next net config t
  rw [next, tell, step, Inquiry.writing_of_sound sound] at come
  rw [Inquiry.writing_of_sound sound]
  exact come

/-- a stream that does not take the question gives no address -/
theorem settles_of_fault {j : Nat} {rest : Sentinels} {socket : Socket} {cause : IoError}
    (walk : u.walk = .asking j (.dialling config.master) rest)
    (fault : socket.write.fault? = some cause)
    (next : next net config t = tell net config u (.connected socket)) :
    Settles net config j rest (u.deeds ++ Inquiry.writing config.master socket)
      (.error (.io cause)) t := by
  have step : (Inquiry.dialling config.master).step (.connected socket) =
      (.done (.error (.io cause)),
        Inquiry.writing config.master socket ++ [.close socket.number]) :=
    Inquiry.ask_of_fault fault config.master
  have done : ((Inquiry.writing config.master socket ++ [Action.close socket.number]).foldl
      (obey net) u).deeds = u.deeds ++ Inquiry.writing config.master socket := by
    rw [Inquiry.writing]
    split
    · rfl
    · exact (List.append_nil _).symm
  rw [← done]
  refine settles_of_next walk step ?_ next
  rw [Inquiry.writing]
  split <;> simp [Action.dial?]

/-- a Sentinel that is asked gives the address that it yields in time, or none -/
theorem settles_of_asking (net : Net) (config : Config) (t : Tour) (j : Nat) (sentinel : Endpoint)
    (rest : Sentinels) :
    ∃ answer, Settles net config j rest (t.deeds ++ .dial sentinel :: net.asks config j sentinel)
        answer (goOn net t (Walk.ask config j (sentinel :: rest))) ∧
      ∀ peer, answer = .ok peer ↔
        net.Yields config.sentinelTimeout (net.sentinel j sentinel) peer := by
  have writes : net.asks config j sentinel = match (net.sentinel j sentinel).fate with
      | .accepted wait socket =>
        if net.Allows config.sentinelTimeout wait then Inquiry.writing config.master socket else []
      | _ => [] := rfl
  generalize behaves : net.sentinel j sentinel = talk at writes
  have asked : goOn net t (Walk.ask config j (sentinel :: rest)) =
      ⟨.asking j (.dialling config.master) rest, config.sentinelTimeout, talk.signals,
        t.deeds ++ [.dial sentinel]⟩ := by
    rw [← behaves]
    rfl
  rw [asked, List.append_cons]
  generalize is : (⟨_, _, _, _⟩ : Tour) = u
  have meets : Meets net config talk.fate (Net.stream talk.chunks talk.finish) u :=
    meets_of_coming (by rw [← is]; rfl)
  subst is
  cases meets with
  | opens wait socket accepted early next =>
    rw [accepted] at writes
    rw [writes.trans (if_pos early)]
    cases fault : socket.write.fault? with
    | none =>
      have come := comes_of_question (u := ⟨.asking j (.dialling config.master) rest,
        config.sentinelTimeout - wait, Net.stream talk.chunks talk.finish,
        t.deeds ++ [.dial sentinel]⟩) rfl fault next
      obtain ⟨answer, settles, hears⟩ := settles_of_reading config (t := ⟨_, _, _, _⟩)
        Inquiry.pending_nil rfl (show _ = Net.stream talk.chunks talk.finish from rfl)
      refine ⟨answer, settles.of_comes come, fun peer => (hears peer).trans ?_⟩
      constructor
      · rintro ⟨heard, late, split, allows, gives⟩
        exact ⟨wait, socket, heard, late, accepted, fault, split, early.sub_iff.mp allows, gives⟩
      · rintro ⟨wait', socket', heard, late, accepted', _, split, allows, gives⟩
        cases accepted.symm.trans accepted'
        exact ⟨heard, late, split, early.sub_iff.mpr allows, gives⟩
    | some cause =>
      refine exists_settles_of_error (settles_of_fault rfl fault next) ?_
      rintro peer ⟨wait', socket', _, _, accepted', sound, _⟩
      cases accepted.symm.trans accepted'
      rw [fault] at sound
      cases sound
  | fails x left coming bad never next =>
    obtain ⟨err, step⟩ : ∃ err,
        (Inquiry.dialling config.master).step x = (.done (.error err), []) := by
      rcases bad with rfl | ⟨cause, rfl⟩
      · exact ⟨_, rfl⟩
      · exact ⟨_, rfl⟩
    have silent : net.asks config j sentinel = [] := by
      rw [writes]
      split
      · next wait socket accepted => exact if_neg (never wait socket accepted)
      · rfl
    rw [silent, List.append_nil]
    refine exists_settles_of_error (settles_of_next rfl step (List.forall_mem_nil _) next) ?_
    rintro peer ⟨wait, socket, heard, late, accepted, _, _, allows, _⟩
    exact never wait socket accepted (allows.of_le (Nat.le_add_right wait _))

/-- an address that is dialled leads to a stream in time, or the next Sentinel is asked -/
theorem comes_of_calling (net : Net) (config : Config) {t : Tour} {j : Nat} {rest : Sentinels}
    {fate : Net.Fate} (walk : t.walk = .calling j rest) (coming : t.coming = fate.signals []) :
    (∃ socket, net.Opens t.left fate socket ∧ ∃ u : Tour, Comes net config t u ∧
      u.walk = .reached socket j ∧ u.deeds = t.deeds) ∨
    (∀ socket, ¬ net.Opens t.left fate socket) ∧ ∃ u : Tour, u.deeds = t.deeds ∧
      Comes net config t (goOn net u (Walk.ask config (j + 1) rest)) := by
  have meets : Meets net config fate [] t := meets_of_coming coming
  cases meets with
  | opens wait socket accepted early next =>
    rw [tell] at next
    dsimp only at next
    rw [walk] at next
    exact .inl ⟨socket, ⟨wait, accepted, early⟩, _, ⟨1, next⟩, rfl, rfl⟩
  | fails x left coming bad never next =>
    refine .inr ⟨fun socket ⟨wait, accepted, early⟩ => never wait socket accepted early,
      { t with left := left, coming := coming }, rfl, 1, next.trans ?_⟩
    rw [tell]
    dsimp only
    rw [walk]
    rcases bad with rfl | ⟨cause, rfl⟩ <;> rfl

/-! ## the walk -/

variable {sentinels : Sentinels} {reported : Nat → Option Endpoint}

/-- each Sentinel, followed by the address that it reported if it did -/
def round (reported : Nat → Option Endpoint) (sentinels : Sentinels) : List Endpoint :=
  sentinels.zipIdx.flatMap fun (sentinel, i) => sentinel :: (reported i).toList

/-- each Sentinel is dialled and asked, then the address that it reported is dialled if it did -/
def course (net : Net) (config : Config) (reported : Nat → Option Endpoint)
    (sentinels : Sentinels) : List Action :=
  sentinels.zipIdx.flatMap fun (sentinel, i) =>
    .dial sentinel :: (net.asks config i sentinel ++ (reported i).toList.map .dial)

theorem dials_asks (net : Net) (config : Config) (i : Nat) (sentinel : Endpoint) :
    (net.asks config i sentinel).filterMap Action.dial? = [] := by
  unfold Net.asks Inquiry.writing
  repeat' split
  all_goals rfl

theorem dials_course (net : Net) (config : Config) (reported : Nat → Option Endpoint)
    (sentinels : Sentinels) :
    (course net config reported sentinels).filterMap Action.dial? = round reported sentinels := by
  rw [course, List.filterMap_flatMap]
  refine congrArg (List.flatMap · _) (funext fun (sentinel, i) => ?_)
  show sentinel :: (net.asks config i sentinel ++ _).filterMap Action.dial? =
    sentinel :: (reported i).toList
  rw [List.filterMap_append, dials_asks, List.nil_append]
  cases reported i <;> rfl

theorem dials_of_course (deeds : t.deeds = course net config reported sentinels) :
    t.dials = round reported sentinels := by
  rw [dials, deeds, dials_course]

theorem course_take_succ {j : Nat} {sentinel : Endpoint} (here : sentinels[j]? = some sentinel) :
    course net config reported (sentinels.take (j + 1)) =
      course net config reported (sentinels.take j) ++
        .dial sentinel :: (net.asks config j sentinel ++ (reported j).toList.map .dial) := by
  have inside := (List.getElem?_eq_some_iff.mp here).1
  have before : (sentinels.take j).length = j := List.length_take_of_le (Nat.le_of_lt inside)
  rw [List.take_add_one, here, course, List.zipIdx_append, List.flatMap_append, before]
  simp [course]

/-- a tour is over: with the first Sentinel that leads to a stream, or after all of them -/
inductive Over (net : Net) (config : Config) (sentinels : Sentinels)
    (reported : Nat → Option Endpoint) (t : Tour) : Prop
  | reached (i socket) (walk : t.walk = .reached socket i)
    (leads : net.Leads config sentinels i socket)
    (first : ∀ j < i, ∀ s, ¬ net.Leads config sentinels j s)
    (deeds : t.deeds = course net config reported (sentinels.take (i + 1)))
  | exhausted (walk : t.walk = .exhausted) (none : ∀ j s, ¬ net.Leads config sentinels j s)
    (deeds : t.deeds = course net config reported sentinels)

/-- a Sentinel is asked: it leads to a stream, or the next one is asked -/
theorem leads_or_passes
    (names : ∀ j peer, reported j = some peer ↔ net.Names config sentinels j peer) {j : Nat}
    {sentinel : Endpoint} (here : sentinels[j]? = some sentinel) (rest : Sentinels)
    (deeds : t.deeds = course net config reported (sentinels.take j)) :
    (∃ socket u, net.Leads config sentinels j socket ∧
      Comes net config (goOn net t (Walk.ask config j (sentinel :: rest))) u ∧
      u.walk = .reached socket j ∧
      u.deeds = course net config reported (sentinels.take (j + 1))) ∨
    (∀ s, ¬ net.Leads config sentinels j s) ∧ ∃ u : Tour,
      Comes net config (goOn net t (Walk.ask config j (sentinel :: rest)))
        (goOn net u (Walk.ask config (j + 1) rest)) ∧
      u.deeds = course net config reported (sentinels.take (j + 1)) := by
  obtain ⟨answer, ⟨u, same, come⟩, yields⟩ := settles_of_asking net config t j sentinel rest
  rw [course_take_succ here]
  rw [deeds] at same
  cases answer with
  | error err =>
    have none : reported j = none := Option.eq_none_iff_forall_ne_some.mpr fun peer is =>
      nomatch (yields peer).mpr ((Net.names_iff here).mp ((names j peer).mp is))
    refine .inr ⟨fun s ⟨peer, named, _⟩ => ?_, u, come, ?_⟩
    · rw [(names j peer).mpr named] at none
      cases none
    · rw [same, none, Option.toList_none, List.map_nil, List.append_nil]
  | ok peer =>
    have named : net.Names config sentinels j peer :=
      (Net.names_iff here).mpr ((yields peer).mp rfl)
    have told : reported j = some peer := (names j peer).mpr named
    have dialled : u.deeds ++ [.dial peer] = course net config reported (sentinels.take j) ++
        .dial sentinel :: (net.asks config j sentinel ++ (reported j).toList.map .dial) := by
      rw [same, told, List.append_assoc]
      rfl
    have calls := comes_of_calling net config
      (t := goOn net u (Walk.proceed config j rest (.done (.ok peer)))) rfl rfl
    rcases calls with ⟨socket, opens, v, called, walk, deeds'⟩ | ⟨never, v, deeds', called⟩
    · exact .inl ⟨socket, v, ⟨peer, named, opens⟩, come.trans called, walk, deeds'.trans dialled⟩
    · refine .inr ⟨fun s ⟨peer', named', opens⟩ => ?_, v, come.trans called, deeds'.trans dialled⟩
      cases told.symm.trans ((names j peer').mpr named')
      exact never s opens

/-- the Sentinels from `j` on are asked, and those before it lead nowhere -/
theorem over_of_ask (names : ∀ j peer, reported j = some peer ↔ net.Names config sentinels j peer)
    {j : Nat} (before : ∀ k < j, ∀ s, ¬ net.Leads config sentinels k s)
    (deeds : t.deeds = course net config reported (sentinels.take j)) :
    ∃ u, Comes net config (goOn net t (Walk.ask config j (sentinels.drop j))) u ∧
      Over net config sentinels reported u := by
  -- on the Sentinels that are left; the index and what was done so far go along
  generalize split : sentinels.drop j = rest
  induction rest generalizing j t with
  | nil =>
    have all : sentinels.length ≤ j := List.drop_eq_nil_iff.mp split
    rw [List.take_of_length_le all] at deeds
    refine ⟨_, .refl _, .exhausted rfl (fun k s leads => ?_) deeds⟩
    have inside : k < sentinels.length := by
      obtain ⟨_, ⟨_, there, _⟩, _⟩ := leads
      exact (List.getElem?_eq_some_iff.mp there).1
    exact before k (Nat.lt_of_lt_of_le inside all) s leads
  | cons sentinel rest ih =>
    have here : sentinels[j]? = some sentinel := by
      rw [← List.head?_drop, split]
      rfl
    have onward : sentinels.drop (j + 1) = rest := by
      rw [← List.tail_drop, split]
      rfl
    rcases leads_or_passes names here rest deeds with
      ⟨socket, u, leads, come, walk, done⟩ | ⟨nowhere, u, come, done⟩
    · exact ⟨u, come, .reached j socket walk leads before done⟩
    · have before' : ∀ k < j + 1, ∀ s, ¬ net.Leads config sentinels k s := by
        intro k less
        rcases Nat.lt_or_eq_of_le (Nat.le_of_lt_succ less) with early | rfl
        · exact before k early
        · exact nowhere
      obtain ⟨v, later, ends⟩ := ih before' done onward
      exact ⟨v, come.trans later, ends⟩

/-- a tour that is over stays as it is -/
theorem Over.next (h : Over net config sentinels reported t) :
    Over net config sentinels reported (next net config t) := by
  have still (idle : ∀ x, t.walk.step config x = (t.walk, [])) :
      (Tour.next net config t).walk = t.walk ∧ (Tour.next net config t).deeds = t.deeds := by
    rw [Tour.next]
    split
    · split
      · rw [tell, idle]
        exact ⟨rfl, rfl⟩
      · rw [tell, idle]
        exact ⟨rfl, rfl⟩
    · rw [tell, idle]
      exact ⟨rfl, rfl⟩
  cases h with
  | reached i socket walk leads first deeds =>
    obtain ⟨walk', deeds'⟩ := still fun x => by
      rw [walk]
      cases x <;> rfl
    exact .reached i socket (walk'.trans walk) leads first (deeds'.trans deeds)
  | exhausted walk none deeds =>
    obtain ⟨walk', deeds'⟩ := still fun x => by
      rw [walk]
      cases x <;> rfl
    exact .exhausted (walk'.trans walk) none (deeds'.trans deeds)

theorem Over.after (h : Over net config sentinels reported t) (n : Nat) :
    Over net config sentinels reported (after net config n t) := by
  induction n generalizing t with
  | zero => exact h
  | succ n ih => exact ih h.next

/-- what the Sentinels report is settled by the network -/
theorem exists_reported (net : Net) (config : Config) (sentinels : Sentinels) :
    ∃ reported : Nat → Option Endpoint,
      ∀ j peer, reported j = some peer ↔ net.Names config sentinels j peer := by
  have each (j : Nat) : ∃ r : Option Endpoint, ∀ peer,
      r = some peer ↔ net.Names config sentinels j peer := by
    cases here : sentinels[j]? with
    | none =>
      refine ⟨none, fun peer => ⟨nofun, ?_⟩⟩
      rintro ⟨_, there, _⟩
      rw [here] at there
      cases there
    | some sentinel =>
      obtain ⟨answer, _, yields⟩ := settles_of_asking net config
        (start net config sentinels) j sentinel []
      -- what the walk would be told if it came to this Sentinel
      refine ⟨answer.toOption, fun peer => ?_⟩
      rw [Net.names_iff here, ← yields]
      cases answer <;> simp [Except.toOption]
  exact Classical.skolem.mp each

/-- a Sentinel leads to one stream only -/
theorem leads_unique (names : ∀ j peer, reported j = some peer ↔ net.Names config sentinels j peer)
    {i : Nat} {socket socket' : Socket} (one : net.Leads config sentinels i socket)
    (other : net.Leads config sentinels i socket') : socket = socket' := by
  obtain ⟨peer, named, wait, accepted, _⟩ := one
  obtain ⟨peer', named', wait', accepted', _⟩ := other
  cases ((names i peer).mpr named).symm.trans ((names i peer').mpr named')
  cases accepted.symm.trans accepted'
  rfl

/-- a tour that is over has come to a stream exactly by the first Sentinel that leads to one -/
theorem Over.attached_iff (h : Over net config sentinels reported t)
    (names : ∀ j peer, reported j = some peer ↔ net.Names config sentinels j peer)
    (i : Nat) (socket : Socket) : Attempt.ofWalk t.walk = .ended (.attached socket (some i)) ↔
      net.Leads config sentinels i socket ∧ ∀ j < i, ∀ s, ¬ net.Leads config sentinels j s := by
  cases h with
  | reached i' socket' walk leads first =>
    rw [walk]
    constructor
    · intro is
      cases is
      exact ⟨leads, first⟩
    · rintro ⟨leads', first'⟩
      have same : i = i' := by
        rcases Nat.lt_trichotomy i i' with less | same | more
        · exact absurd leads' (first i less socket)
        · exact same
        · exact absurd leads (first' i' more socket')
      subst same
      rw [leads_unique names leads leads']
      rfl
  | exhausted walk none =>
    rw [walk]
    exact ⟨nofun, fun ⟨leads, _⟩ => absurd leads (none i socket)⟩

theorem Over.deeds_of_attached (h : Over net config sentinels reported t) {i : Nat}
    {socket : Socket} (attached : Attempt.ofWalk t.walk = .ended (.attached socket (some i))) :
    t.deeds = course net config reported (sentinels.take (i + 1)) := by
  cases h with
  | reached i' socket' walk leads first deeds =>
    rw [walk] at attached
    cases attached
    exact deeds
  | exhausted walk =>
    rw [walk] at attached
    cases attached

/-- a tour that is over without a Sentinel that leads to a stream has failed, and asked them all -/
theorem Over.failed_of_none (h : Over net config sentinels reported t)
    (none : ∀ j s, ¬ net.Leads config sentinels j s) :
    Attempt.ofWalk t.walk = .ended (.failed (.sentinel "failed to connect sentinels") true) ∧
      t.deeds = course net config reported sentinels := by
  cases h with
  | reached i socket walk leads => exact absurd leads (none i socket)
  | exhausted walk _ deeds =>
    rw [walk]
    exact ⟨rfl, deeds⟩

/-- **A walk ends with the first Sentinel that leads to a stream.**  Whatever the network does, the
walk is over after some signals: with stream and index exactly if the Sentinel of that index is the
first that yields an address within its time limit which can be dialled within the connect timeout,
and the stream is that of the address; else with the error of the search.  It has dialled, from the
first Sentinel on, each one and the address that it reported, if it did: up to the one that led to
the stream, or all of them.  All that it has written is the question, once on each stream that a
Sentinel accepted in time and that took it, before the address was dialled. -/
theorem walk_ends (net : Net) (config : Config) (sentinels : Sentinels) :
    ∃ (reported : Nat → Option Endpoint) (n : Nat),
      (∀ j peer, reported j = some peer ↔ net.Names config sentinels j peer) ∧
      ∀ m, n ≤ m →
        let t := after net config m (start net config sentinels)
        (∀ i socket, Attempt.ofWalk t.walk = .ended (.attached socket (some i)) ↔
          net.Leads config sentinels i socket ∧ ∀ j < i, ∀ s, ¬ net.Leads config sentinels j s) ∧
        (∀ i socket, Attempt.ofWalk t.walk = .ended (.attached socket (some i)) →
          t.deeds = course net config reported (sentinels.take (i + 1)) ∧
          t.dials = round reported (sentinels.take (i + 1))) ∧
        ((∀ j s, ¬ net.Leads config sentinels j s) →
          Attempt.ofWalk t.walk = .ended (.failed (.sentinel "failed to connect sentinels") true) ∧
            t.deeds = course net config reported sentinels ∧
            t.dials = round reported sentinels) := by
  obtain ⟨reported, names⟩ := exists_reported net config sentinels
  obtain ⟨u, ⟨n, come⟩, ends⟩ := over_of_ask (t := ⟨.exhausted, 0, [], []⟩) names (j := 0)
    (fun k less => absurd less (Nat.not_lt_zero k)) rfl
  refine ⟨reported, n, names, fun m enough => ?_⟩
  have ends : Over net config sentinels reported
      (after net config m (start net config sentinels)) := by
    have later := ends.after (m - n)
    rw [← come, after, after, ← Function.iterate_add_apply, Nat.sub_add_cancel enough] at later
    exact later
  refine ⟨ends.attached_iff names, fun i socket attached => ?_, fun none => ?_⟩
  · have deeds := ends.deeds_of_attached attached
    exact ⟨deeds, dials_of_course deeds⟩
  · obtain ⟨failed, deeds⟩ := ends.failed_of_none none
    exact ⟨failed, deeds, dials_of_course deeds⟩

/-- the first Sentinel does not know the master, and the second one's answer comes in two chunks -/
example :
    let config := Config.default.withSentinel "main" [⟨"s1", 26379⟩, ⟨"s2", 26379⟩, ⟨"s3", 26379⟩]
    let net : Net :=
      { sentinel := fun i _ => if i = 0
          then ⟨.accepted 1 (.fresh 0), [(2, Utf8.encode "*-1\r\n")], .silent⟩
          else ⟨.accepted 1 (.fresh i), [(9, Utf8.encode "*2\r\n$2\r\nm1\r\n"),
            (9, Utf8.encode "$4\r\n6379\r\n")], .ended 5⟩
        master := fun i _ => .accepted 3 (.fresh (i + 100))
        prompt := true }
    (after net config 6 (start net config config.sentinels)).dials =
      [⟨"s1", 26379⟩, ⟨"s2", 26379⟩, ⟨"m1", 6379⟩] := by
  decide +kernel

end
end Tour
end RespLink
