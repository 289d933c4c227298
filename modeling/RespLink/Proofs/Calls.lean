import RespLink.Proofs.Rolls
import RespLink.Proofs.Routes

/-!
# Calls by name

What a client knows by name a server knows by its words: each call goes out as the words of one
command, and on the links that this command is for.

* `Call.ofWords?`   the call that a server finds in the words of a command;
* `Call.words`      the words that go out; `ofWords?_words` finds the call in them again;
* `Call.isFor`      which link a call is for, and `takes_request` that its request goes there;
* `decode_frame`    what is read off the frame of a call;
* `part_request`    what either link gets of a call, and what a server makes of it.
-/

namespace RespLink
namespace Call

/-! ## words -/

/-- a command as a server knows it, by its verb and the number of words behind it; `EVAL` counts its
keys -/
def ofWords? : List String → Option Call
  | ["PING"] => some ping
  | ["GET", key] => some (get key)
  | ["SET", key, value] => some (set key value)
  | "DEL" :: keys => some (del keys)
  | ["INCR", key] => some (incr key)
  | ["PUBLISH", channel, message] => some (publish channel message)
  | ["INFO"] => some (info none)
  | ["INFO", part] => some (info (some part))
  | ["HGETALL", key] => some (hgetall key)
  | "EVAL" :: script :: count :: rest =>
    match Numeral.readInt rest.length count.toList with
    | .ok n => some (eval script (rest.take n.toNat) (rest.drop n.toNat))
    | .error _ => none
  | "SUBSCRIBE" :: channels => some (subscribe channels)
  | "PSUBSCRIBE" :: patterns => some (psubscribe patterns)
  | "UNSUBSCRIBE" :: channels => some (unsubscribe channels)
  | "PUNSUBSCRIBE" :: patterns => some (punsubscribe patterns)
  | ["QUIT"] => some quit
  | _ => none

/-- the verb of a call and its arguments as texts -/
def words (call : Call) : List String :=
  call.request.verb :: call.request.args.map (Arg.toText .utf8)

theorem words_ask {verb : String} (upper : Transform.upperAscii verb = verb) (texts : List String)
    (shape : Shape) :
    (ask verb texts shape).verb :: (ask verb texts shape).args.map (Arg.toText .utf8) =
      verb :: texts := by
  show Transform.upperAscii verb :: (texts.map Arg.text).map (Arg.toText .utf8) = _
  rw [upper, List.map_map]
  exact congrArg (verb :: ·) (List.map_id texts)

/-- a count is sent by its digits, in the range of integers or above it -/
theorem toText_ofNat (n : Nat) : (Arg.ofNat n).toText .utf8 = Numeral.ofNat n := by
  rw [Arg.ofNat]
  split
  · next small =>
    show Numeral.ofInt (Int64.ofNat n).toInt = _
    rw [Int64.toInt_ofNat_of_lt (by omega)]
    rfl
  · rfl

theorem words_eval (script : String) (keys args : List String) :
    (eval script keys args).words =
      "EVAL" :: script :: Numeral.ofNat keys.length :: (keys ++ args) := by
  have upper : Transform.upperAscii "EVAL" = "EVAL" := by decide +kernel
  have texts : ((keys ++ args).map Arg.text).map (Arg.toText .utf8) = keys ++ args := by
    rw [List.map_map]
    exact List.map_id _
  show Transform.upperAscii "EVAL" :: ([Arg.text script] ++ [Arg.ofNat keys.length] ++
    (keys ++ args).map Arg.text).map (Arg.toText .utf8) = _
  rw [upper, List.map_append, texts]
  exact congrArg (fun n => "EVAL" :: script :: n :: (keys ++ args)) (toText_ofNat keys.length)

/-- a server finds the call in the words -/
theorem ofWords?_words (call : Call) : ofWords? call.words = some call := by
  cases call with
  | eval script keys args =>
    have fits : keys.length ≤ (keys ++ args).length := by
      rw [List.length_append]
      exact Nat.le_add_right _ _
    rw [words_eval, ofWords?, Numeral.ofNat, String.toList_ofList, Numeral.readInt_toDigits fits]
    show some (eval script ((keys ++ args).take keys.length) ((keys ++ args).drop keys.length)) = _
    rw [List.take_left, List.drop_left]
  | info part? => cases part? <;> exact congrArg ofWords? (words_ask (by decide +kernel) _ .text)
  | _ => exact congrArg ofWords? (words_ask (by decide +kernel) _ _)

/-! ## links -/

/-- the call is about subscriptions -/
def subscribes : Call → Bool
  | subscribe _ | psubscribe _ | unsubscribe _ | punsubscribe _ => true
  | _ => false

/-- the link for subscriptions takes the calls about them, the other one all else; both take
`QUIT` -/
def isFor (role : Role) (call : Call) : Bool :=
  match role with
  | .command => !call.subscribes
  | .pubsub => call.subscribes || call = quit

/-- to part from the servers is to call `QUIT` -/
theorem request_quit : quit.request = Link.quit ∧ quit.words = ["QUIT"] := ⟨rfl, rfl⟩

theorem takes_request (role : Role) (call : Call) :
    role.takes call.request = call.isFor role := by
  cases role <;> cases call <;> rfl

/-! ## the wire -/

/-- a frame under UTF-8, with anything behind it -/
theorem decode_frame {config : Config} (utf8 : config.encoding = .utf8) {call : Call}
    (fits : (call.request.wording config.encoding).Fits) (rest : Bytes) :
    Reply.decode ((call.request.wording config.encoding).frame ++ rest) =
      .complete (.array (call.words.map Reply.ofText), rest) := by
  have args := (Client.textual_request call).args_wording utf8
  have texts : (call.request.wording config.encoding).reply =
      .array (call.words.map Reply.ofText) := by
    rw [Wording.reply, Wording.bulks, args, Client.keys, words, utf8]
    simp only [List.map_cons, List.map_map]
    rfl
  have wireable := Wording.wireable_reply fits
  rw [Wording.frame_eq, ← texts]
  exact Reply.decodeWithin_encode _ maxDepth wireable.depth wireable.plain rest

/-- **Calls by name go where they belong and say what they are.**  A link that a call is for gets
one command of it, with its ticket, and the other link none.  Under UTF-8 a server reads one array
of texts off its frame, whatever comes behind it, and finds the call in these texts. -/
theorem part_request (config : Config) (role : Role) (t : Ticket) (call : Call) :
    (call.isFor role = false → Client.part config role t call.request = []) ∧
    (call.isFor role = true → ∃ c, Client.part config role t call.request = [c] ∧ c.ticket = t ∧
      (config.encoding = .utf8 → (call.request.wording config.encoding).Fits → ∀ rest,
        ∃ texts, ofWords? texts = some call ∧
          Reply.decode (c.frame ++ rest) = .complete (.array (texts.map Reply.ofText), rest))) := by
  have postings := Client.part_posting config role t call.request
  rw [takes_request] at postings
  refine ⟨fun other => ?_, fun own => ?_⟩
  · rw [other] at postings
    exact List.map_eq_nil_iff.mp postings
  · rw [if_pos own] at postings
    obtain ⟨c, one, posting⟩ := List.map_eq_singleton_iff.mp postings
    obtain ⟨ticket, frame⟩ := Prod.mk.inj posting
    refine ⟨c, one, ticket, fun utf8 fits rest => ⟨call.words, ofWords?_words call, ?_⟩⟩
    rw [show c.frame = _ from frame]
    exact decode_frame utf8 fits rest

end Call
end RespLink
