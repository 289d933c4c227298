import RespLink.Proofs.EightBit
import RespLink.Proofs.Readings
import RespLink.Sentinel.Question

/-!
# Two readers of a master's address

A client that asks a Sentinel for the address of a master reads the reply as a list of values, under
the encoding of its configuration; a link in Sentinel mode reads the same reply itself.  They give
the same address, or none, unless an element of the reply is a text to one of them only.

* `Question.addressTold`    what the caller of the question gets for a reply;
* `Reply.Unambiguous`       a reply whose elements are texts to both readers or to neither;
* `asText?_host`, `asText?_port`   one element, to both readers;
* `addressOf_pair`, `masterAddress_pair`   both elements, to each reader;
* `Question.readers_agree`  every reply, under either encoding.
-/

namespace RespLink

/-! ## what a question gives -/

/-- the one reply that a command of a request expects decides its answer -/
theorem Command.answer_ofRequest_eq (ticket : Ticket) (r : Request) (e : Encoding) (reply : Reply) :
    (Command.ofRequest ticket r e).answer [reply] =
      RespLink.transform reply (Transform.ofVerb r.verb) r.shape (r.encoding e) := by
  cases read : RespLink.transform reply (Transform.ofVerb r.verb) r.shape (r.encoding e) with
  | ok value => exact answer_ofRequest read
  | error err =>
    rw [answer, List.foldl_cons, accept_of_error (c := Command.ofRequest ticket r e) read]
    rfl

namespace Question

/-- the address that the caller gets, or none, if this is the reply to the command -/
def addressTold (name : String) (ticket : Ticket) (e : Encoding) (reply : Reply) :
    Except Error (Option Endpoint) :=
  ((Command.ofRequest ticket (address name).request e).answer [reply]).bind addressOf

theorem addressTold_answer (name : String) (ticket : Ticket) (e : Encoding) (reply : Reply) :
    ((Command.ofRequest ticket (address name).request e).answer [reply]).bind (address name).answer =
      (addressTold name ticket e reply).map .endpointIfAny := by
  rw [addressTold]
  cases (Command.ofRequest ticket (address name).request e).answer [reply] <;> rfl

/-- all but an error is read as an element of a list would be -/
theorem addressTold_eq (name : String) (ticket : Ticket) (e : Encoding) (reply : Reply) :
    addressTold name ticket e reply =
      match reply with
      | .error text => .error (.server text)
      | sound => addressOf (element .list e sound) := by
  have plain : Transform.ofVerb (address name).request.verb = .none :=
    show Transform.ofVerb (Transform.upperAscii "SENTINEL") = .none by decide +kernel
  rw [addressTold, Command.answer_ofRequest_eq, plain]
  cases reply <;> rfl

end Question

/-! ## one element -/

namespace Reply

/-- neither a number, which only the link takes for a text, nor an error, which only the client
takes for one -/
def isWord : Reply → Bool
  | integer _ | error _ => false
  | _ => true

/-- if there are two elements then both are words, and the bytes of the first, if it is a byte
string, are faithful; the port is ASCII to any reader -/
def Unambiguous (e : Encoding) : Reply → Prop
  | array [host, port] =>
    (host.isWord = true ∧ ∀ bytes, host = bulk bytes → e.Faithful bytes) ∧ port.isWord = true
  | _ => True

variable {e : Encoding} {s : String}

theorem readUtf8_eq_ok_iff {bytes : Bytes} :
    Text.readUtf8 bytes = .ok s ↔ Utf8.decode? bytes = .ok s := by
  rw [Text.readUtf8]
  cases Utf8.decode? bytes <;> simp

/-- both readers take a word for the same text, if they do so with its bytes -/
theorem asText?_word {reply : Reply} (word : reply.isWord = true)
    (alike : ∀ bytes, reply = bulk bytes → (e.decode bytes = s ↔ Utf8.decode? bytes = .ok s)) :
    (element .list e reply).asText? = some s ↔ reply.asText = .ok s := by
  cases reply with
  | bulk bytes =>
    show some (e.decode bytes) = some s ↔ Text.readUtf8 bytes = .ok s
    rw [Option.some.injEq, readUtf8_eq_ok_iff]
    exact alike bytes rfl
  | simple text =>
    show some text = some s ↔ Except.ok text = .ok s
    rw [Option.some.injEq, Except.ok.injEq]
  | error _ | integer _ => cases word
  | null | nullArray | array _ => exact ⟨nofun, nofun⟩

theorem asText?_host {host : Reply} (word : host.isWord = true)
    (faithful : ∀ bytes, host = bulk bytes → e.Faithful bytes) :
    (element .list e host).asText? = some s ↔ host.asText = .ok s := by
  refine asText?_word word fun bytes own => ?_
  rw [Encoding.faithful_iff.mp (faithful bytes own), Except.ok.injEq]

/-- no bytes are needed to be faithful if the text is ASCII -/
theorem asText?_port {port : Reply} (word : port.isWord = true)
    (ascii : ∀ c ∈ s.toList, c.toNat < 0x80) :
    (element .list e port).asText? = some s ↔ port.asText = .ok s := by
  refine asText?_word word fun bytes _ => ?_
  rw [Encoding.decode_eq_iff_of_ascii ascii, Utf8.decode?_eq_ok_iff]

/-- of any other host they make different texts, or one of them makes none -/
theorem asText?_of_not_host {host : Reply}
    (strange : ¬ (host.isWord = true ∧ ∀ bytes, host = bulk bytes → e.Faithful bytes))
    (told : (element .list e host).asText? = some s) : host.asText ≠ .ok s := by
  cases host with
  | bulk bytes =>
    intro read
    obtain rfl : e.decode bytes = s := Option.some.inj told
    refine strange ⟨rfl, fun own same => ?_⟩
    cases same
    exact Encoding.faithful_iff.mpr (readUtf8_eq_ok_iff.mp read)
  | simple _ => exact absurd ⟨rfl, nofun⟩ strange
  | error _ => nofun
  | integer _ | null | nullArray | array _ => cases told

theorem asText?_of_not_port {port : Reply} (strange : port.isWord ≠ true)
    (told : (element .list e port).asText? = some s) (t : String) : port.asText ≠ .ok t := by
  cases port with
  | error _ => nofun
  | integer _ => cases told
  | simple _ | bulk _ | null | nullArray | array _ => exact absurd rfl strange

end Reply

/-! ## both elements -/

theorem masterPort_eq_ok_iff {text : String} {n : UInt16} :
    masterPort text = .ok n ↔ Numeral.Denotes text.toList n.toNat := by
  rw [← Numeral.uint16_eq_ok_iff, masterPort]
  cases Numeral.uint16 text <;> simp

theorem Numeral.Denotes.ascii {cs : List Char} {n : Nat} (h : Denotes cs n) :
    ∀ c ∈ cs, c.toNat < 0x80 := by
  cases h with
  | plain _ all => exact fun c inside => ascii_of_isDigit (all c inside)
  | signed _ all =>
    refine List.forall_mem_cons.mpr ⟨by decide, fun c inside => ascii_of_isDigit (all c inside)⟩

theorem Question.addressOf_pair {host port : Value} {peer : Endpoint} :
    addressOf (.array [host, port]) = .ok (some peer) ↔ host.asText? = some peer.host ∧
      ∃ text, port.asText? = some text ∧ masterPort text = .ok peer.port := by
  cases host with
  | text host =>
    cases port with
    | text port =>
      show (masterPort port).map (fun port => some ⟨host, port⟩) = .ok (some peer) ↔ _
      obtain ⟨name, number⟩ := peer
      simp only [Value.asText?, Option.some.injEq, exists_eq_left']
      cases masterPort port <;> simp [Except.map]
    | _ => exact ⟨nofun, fun ⟨_, _, told, _⟩ => nomatch told⟩
  | _ => exact ⟨nofun, fun ⟨told, _⟩ => nomatch told⟩

theorem masterAddress_pair {host port : Reply} {peer : Endpoint} :
    masterAddress (.array [host, port]) = .ok peer ↔ host.asText = .ok peer.host ∧
      ∃ text, port.asText = .ok text ∧ masterPort text = .ok peer.port := by
  obtain ⟨name, number⟩ := peer
  rw [masterAddress]
  cases host.asText with
  | error _ => exact ⟨nofun, fun ⟨told, _⟩ => nomatch told⟩
  | ok host =>
    cases port.asText with
    | error _ => exact ⟨nofun, fun ⟨_, _, told, _⟩ => nomatch told⟩
    | ok port =>
      show (masterPort port).map (fun port => (⟨host, port⟩ : Endpoint)) = .ok _ ↔ _
      simp only [Except.ok.injEq, exists_eq_left']
      cases masterPort port <;> simp [Except.map]

/-! ## every reply -/

theorem exists_error_iff {α : Type} {result : Except Error α} :
    (∃ err, result = .error err) ↔ ∀ a, result ≠ .ok a := by
  cases result with
  | error err => exact iff_of_true ⟨err, rfl⟩ nofun
  | ok a => exact iff_of_false nofun fun none => none a rfl

namespace Question

theorem addressOf_eq_none_iff {value : Value} : addressOf value = .ok none ↔ value = .nil := by
  rw [addressOf.eq_def]
  split
  · exact iff_of_true rfl rfl
  · next port =>
    refine iff_of_false ?_ nofun
    cases masterPort port <;> exact nofun
  · exact iff_of_false nofun nofun
  · next other _ _ => exact iff_of_false nofun other

theorem length_of_addressOf {items : List Value} {peer : Endpoint}
    (told : addressOf (.array items) = .ok (some peer)) : items.length = 2 := by
  rw [addressOf.eq_def] at told
  split at told
  · cases told
  · next same =>
    cases same
    rfl
  · cases told
  · cases told

section
variable (name : String) (ticket : Ticket) (e : Encoding) {reply : Reply} {peer : Endpoint}

theorem addressTold_eq_none_iff :
    addressTold name ticket e reply = .ok none ↔ reply = .null ∨ reply = .nullArray := by
  cases reply with
  | error text =>
    rw [addressTold_eq]
    exact ⟨nofun, nofun⟩
  | simple _ | integer _ | bulk _ | null | nullArray | array _ =>
    rw [addressTold_eq]
    dsimp only
    rw [addressOf_eq_none_iff, element]
    simp [bulkElement]

/-- an address is told by an array of two, to either reader -/
theorem exists_pair_of_addressTold (told : addressTold name ticket e reply = .ok (some peer)) :
    ∃ host port, reply = .array [host, port] := by
  rw [addressTold_eq] at told
  cases reply with
  | array items =>
    dsimp only at told
    rw [element, elements_eq_map] at told
    have two := length_of_addressOf told
    rw [List.length_map] at two
    obtain ⟨host, port, rfl⟩ := List.length_eq_two.mp two
    exact ⟨host, port, rfl⟩
  | error _ => cases told
  | simple _ | integer _ | bulk _ | null | nullArray =>
    dsimp only at told
    rw [element] at told
    cases told

theorem addressTold_pair {host port : Reply} :
    addressTold name ticket e (.array [host, port]) = .ok (some peer) ↔
      (element .list e host).asText? = some peer.host ∧
        ∃ text, (element .list e port).asText? = some text ∧ masterPort text = .ok peer.port := by
  rw [addressTold_eq]
  exact addressOf_pair

end

end Question

theorem exists_pair_of_masterAddress {reply : Reply} {peer : Endpoint}
    (told : masterAddress reply = .ok peer) : ∃ host port, reply = .array [host, port] := by
  rw [masterAddress.eq_def] at told
  split at told
  · next host port => exact ⟨host, port, rfl⟩
  all_goals cases told

namespace Question
variable (name : String) (ticket : Ticket) {e : Encoding} {reply : Reply}

/-- what both readers take for a text is the same text to both -/
theorem addressTold_eq_some_iff (alike : reply.Unambiguous e) (peer : Endpoint) :
    addressTold name ticket e reply = .ok (some peer) ↔ masterAddress reply = .ok peer := by
  have both {host port : Reply} (alike : (Reply.array [host, port]).Unambiguous e) :
      addressTold name ticket e (.array [host, port]) = .ok (some peer) ↔
        masterAddress (.array [host, port]) = .ok peer := by
    obtain ⟨⟨word, faithful⟩, number⟩ := alike
    rw [addressTold_pair, masterAddress_pair, Reply.asText?_host word faithful]
    refine and_congr_right fun _ => exists_congr fun text => and_congr_left fun denotes => ?_
    exact Reply.asText?_port number (masterPort_eq_ok_iff.mp denotes).ascii
  constructor
  · intro told
    obtain ⟨host, port, rfl⟩ := exists_pair_of_addressTold name ticket e told
    exact (both alike).mp told
  · intro told
    obtain ⟨host, port, rfl⟩ := exists_pair_of_masterAddress told
    exact (both alike).mpr told

/-- what only one reader takes for a text keeps the other from the same address -/
theorem not_same_of_ambiguous (ambiguous : ¬ reply.Unambiguous e) (peer : Endpoint)
    (told : addressTold name ticket e reply = .ok (some peer)) : masterAddress reply ≠ .ok peer := by
  obtain ⟨host, port, rfl⟩ := exists_pair_of_addressTold name ticket e told
  obtain ⟨named, text, numbered, _⟩ := (addressTold_pair name ticket e).mp told
  intro same
  obtain ⟨named', text', numbered', _⟩ := masterAddress_pair.mp same
  obtain strange | strange := not_and_or.mp ambiguous
  · exact Reply.asText?_of_not_host strange named named'
  · exact Reply.asText?_of_not_port strange numbered text' numbered'

/-- **The two readers of a master's address.**  The client is told of no address exactly by a null.
If the reply is unambiguous, it is told of an address exactly when the link is, and of the same one;
it fails exactly when the link fails on a reply that is not null.  If the reply is ambiguous, they
are not told of the same address. -/
theorem readers_agree (name : String) (ticket : Ticket) (e : Encoding) (reply : Reply) :
    (addressTold name ticket e reply = .ok none ↔ reply = .null ∨ reply = .nullArray) ∧
    (reply.Unambiguous e →
      (∀ peer, addressTold name ticket e reply = .ok (some peer) ↔ masterAddress reply = .ok peer) ∧
      ((∃ err, addressTold name ticket e reply = .error err) ↔
        (∃ err, masterAddress reply = .error err) ∧ reply ≠ .null ∧ reply ≠ .nullArray)) ∧
    (¬ reply.Unambiguous e → ∀ peer,
      ¬ (addressTold name ticket e reply = .ok (some peer) ∧ masterAddress reply = .ok peer)) := by
  refine ⟨addressTold_eq_none_iff name ticket e, fun alike => ?_, fun ambiguous peer => ?_⟩
  · have some := addressTold_eq_some_iff name ticket alike
    refine ⟨some, ?_⟩
    rw [exists_error_iff, exists_error_iff, Option.forall, ← not_or,
      ← addressTold_eq_none_iff name ticket e, and_comm]
    exact and_congr_left' (forall_congr' fun peer => not_congr (some peer))
  · exact fun ⟨told, same⟩ => not_same_of_ambiguous name ticket ambiguous peer told same

/-- host and port as a Sentinel sends them; a number in place of the port -/
theorem readers_agree_on_texts :
    let texts : Reply := .array [.ofText "m1", .ofText "6379"]
    let number : Reply := .array [.ofText "m1", .integer 6379]
    texts.Unambiguous .latin1 ∧ addressTold "main" 1 .latin1 texts = .ok (some ⟨"m1", 6379⟩) ∧
      ¬ number.Unambiguous .utf8 ∧ addressTold "main" 1 .utf8 number ≠ .ok (some ⟨"m1", 6379⟩) := by
  intro texts number
  have alike : texts.Unambiguous .latin1 := by
    refine ⟨⟨rfl, fun bytes same => ?_⟩, rfl⟩
    cases same
    decide +kernel
  have ambiguous : ¬ number.Unambiguous .utf8 := fun alike => nomatch alike.2
  have linked : masterAddress texts = .ok ⟨"m1", 6379⟩ := by decide +kernel
  have linked' : masterAddress number = .ok ⟨"m1", 6379⟩ := by decide +kernel
  refine ⟨alike, ?_, ambiguous, fun told => ?_⟩
  · exact (((readers_agree "main" 1 .latin1 texts).2.1 alike).1 _).mpr linked
  · exact (readers_agree "main" 1 .utf8 number).2.2 ambiguous _ ⟨told, linked'⟩

/-- a number for a port is an address to the link alone, an error for a host or bytes that are no
UTF-8 to the client alone, and bytes above 0x7F name one host in UTF-8 and another in Latin-1 -/
theorem readers_differ :
    (masterAddress (.array [.ofText "m1", .integer 6379]) = .ok ⟨"m1", 6379⟩ ∧
      addressTold "main" 1 .utf8 (.array [.ofText "m1", .integer 6379]) =
        .error (.unexpected "[String(\"m1\"), Int(6379)]")) ∧
    (masterAddress (.array [.error "m1", .ofText "6379"]) =
        .error (.conversion "Cannot convert Error(\"m1\") to string") ∧
      addressTold "main" 1 .utf8 (.array [.error "m1", .ofText "6379"]) =
        .ok (some ⟨"m1", 6379⟩)) ∧
    (masterAddress (.array [.bulk [0xFF], .ofText "6379"]) =
        .error (.conversion "Invalid UTF-8: invalid utf-8 sequence of 1 bytes from index 0") ∧
      addressTold "main" 1 .utf8 (.array [.bulk [0xFF], .ofText "6379"]) =
        .ok (some ⟨"\uFFFD", 6379⟩)) ∧
    (masterAddress (.array [.ofText "é", .ofText "6379"]) = .ok ⟨"é", 6379⟩ ∧
      addressTold "main" 1 .latin1 (.array [.ofText "é", .ofText "6379"]) =
        .ok (some ⟨"Ã©", 6379⟩)) := by
  decide +kernel

end Question
end RespLink
