import RespLink.Proofs.Readers
import RespLink.Proofs.Numerals
import RespLink.Proofs.Characters
import RespLink.Reply.Encoder

/-!
# Replies read back

A reply that fits on the wire is what the decoder reads off its bytes, and it reads no byte more.
Every reply that the decoder ever returns fits on the wire, so that encoding a reply that was read
is a normal form of the bytes it was read from.

* `depth`      arrays inside each other;
* `Plain`      texts in one line, lengths in range;
* `Wireable`   both: the replies that the wire can carry;
* `decodeWithin_encode`   from a reply to its bytes and back, with levels enough for its depth;
* `wireable_of_decode`    what is read can be written.
-/

namespace RespLink

/-- the greatest length that a header can announce -/
def maxLength : Nat := 0x7fffffffffffffff

namespace Reply

/-! ## what the wire can carry -/

mutual

/-- arrays inside each other; an array counts whether it has items or not -/
def depth : Reply → Nat
  | array items => depthItems items + 1
  | nullArray => 1
  | _ => 0

def depthItems : List Reply → Nat
  | [] => 0
  | item :: rest => max (depth item) (depthItems rest)

end

mutual

/-- no text holds the end of a line, and every length can be announced -/
def Plain : Reply → Prop
  | simple text | error text => ¬ Utf8.lineEnd <:+: text.toList
  | bulk bytes => bytes.length ≤ maxLength
  | array items => items.length ≤ maxLength ∧ PlainItems items
  | _ => True

def PlainItems : List Reply → Prop
  | [] => True
  | item :: rest => Plain item ∧ PlainItems rest

end

structure Wireable (reply : Reply) : Prop where
  depth : reply.depth ≤ maxDepth
  plain : reply.Plain

end Reply

/-! ## lines -/

theorem headerLine_append (t : UInt8) (content t' : Bytes) :
    headerLine t content ++ t' = t :: (content ++ Bytes.crlf ++ t') := rfl

theorem frontLine_text {text : String} (plain : ¬ Utf8.lineEnd <:+: text.toList) (rest : Bytes) :
    frontLine (Utf8.encode text ++ Bytes.crlf ++ rest) = .complete (Utf8.encode text, rest) :=
  frontLine_of_unbroken (fun broken => plain (Utf8.crlf_of_encode broken)) rest

/-- a numeral is in one line -/
theorem plain_ofInt (n : Int) : ¬ Utf8.lineEnd <:+: (Numeral.ofInt n).toList := by
  intro broken
  have mem : '\r' ∈ (Numeral.ofInt n).toList := broken.subset List.mem_cons_self
  obtain minus | digit := Numeral.of_mem_ofInt mem
  · exact absurd minus (by decide)
  · exact absurd digit (by decide)

theorem lineNumber_ofInt (n : Int64) :
    lineNumber (Utf8.encode (Numeral.ofInt n.toInt)) = .complete n := by
  rw [lineNumber, Utf8.decode?_encode]
  dsimp only
  rw [Numeral.int64_ofInt]

theorem frontNumber_ofInt (n : Int64) (rest : Bytes) :
    frontNumber (Utf8.encode (Numeral.ofInt n.toInt) ++ Bytes.crlf ++ rest) =
      .complete (n, rest) := by
  rw [frontNumber, frontLine_text (plain_ofInt _)]
  show (lineNumber (Utf8.encode (Numeral.ofInt n.toInt))).bind _ = _
  rw [lineNumber_ofInt]
  rfl

/-- the length that announces nothing -/
theorem frontNumber_none (rest : Bytes) :
    frontNumber (Utf8.encode "-1" ++ Bytes.crlf ++ rest) = .complete (-1, rest) :=
  frontNumber_ofInt (-1) rest

/-- a length is a number of the wire -/
theorem decimal_eq {n : Nat} (fits : n ≤ maxLength) :
    decimal n = Utf8.encode (Numeral.ofInt (Int64.ofInt n).toInt) := by
  rw [Numeral.toInt_ofNat fits]
  rfl

theorem frontNumber_decimal {n : Nat} (fits : n ≤ maxLength) (rest : Bytes) :
    frontNumber (decimal n ++ Bytes.crlf ++ rest) = .complete (Int64.ofInt n, rest) := by
  rw [decimal_eq fits, frontNumber_ofInt]

/-- a length in range is not below zero -/
theorem length_ofNat {n : Nat} (fits : n ≤ maxLength) :
    (Int64.ofInt n).toInt.toNat = n ∧ Int64.ofInt n ≠ -1 ∧ ¬ Int64.ofInt n < 0 := by
  have value := Numeral.toInt_ofNat fits
  have zero : Int64.toInt 0 = 0 := rfl
  have minus : Int64.toInt (-1) = -1 := rfl
  refine ⟨by rw [value]; rfl, ?_, ?_⟩
  · intro e
    rw [e] at value
    omega
  · rw [Int64.lt_iff_toInt_lt]
    omega

namespace Reply

/-! ## from replies to bytes and back -/

theorem decodeBulk_payload {bytes : Bytes} (fits : bytes.length ≤ maxLength) (rest : Bytes) :
    decodeBulk (Int64.ofInt bytes.length) (bytes ++ Bytes.crlf ++ rest) =
      .complete (bulk bytes, rest) := by
  obtain ⟨value, some, sound⟩ := length_ofNat fits
  have size : (bytes ++ Bytes.crlf).length = bytes.length + 2 := List.length_append
  have long : ¬ (bytes ++ Bytes.crlf ++ rest).length < bytes.length + 2 := by
    rw [List.length_append, size]
    omega
  have ended : ((bytes ++ Bytes.crlf ++ rest).drop bytes.length).take 2 = Bytes.crlf := by
    rw [List.append_assoc, List.drop_left]
    rfl
  rw [decodeBulk, if_neg some, if_neg sound, value]
  dsimp only
  rw [if_neg long, if_pos ended, ← size, List.drop_left, List.append_assoc, List.take_left]

section
variable (readArray : Bytes → Verdict (Reply × Bytes)) (body : Bytes)

theorem decodeWith_simple : decodeWith readArray (0x2B :: body) =
    (frontLine body).bind fun found => .complete (simple (Utf8.lossy found.1), found.2) := rfl

theorem decodeWith_error : decodeWith readArray (0x2D :: body) =
    (frontLine body).bind fun found => .complete (error (Utf8.lossy found.1), found.2) := rfl

theorem decodeWith_integer : decodeWith readArray (0x3A :: body) =
    (frontNumber body).bind fun found => .complete (integer found.1, found.2) := rfl

theorem decodeWith_bulk : decodeWith readArray (0x24 :: body) =
    (frontNumber body).bind fun found => decodeBulk found.1 found.2 := rfl

theorem decodeWithin_array (n : Nat) :
    decodeWithin (n + 1) (0x2A :: body) = decodeArray (decodeWithin n) body := rfl

end

/-- what is no array is read at any level -/
theorem decodeWith_encode (readArray : Bytes → Verdict (Reply × Bytes)) {reply : Reply}
    (flat : reply.depth = 0) (plain : reply.Plain) (rest : Bytes) :
    decodeWith readArray (reply.encode ++ rest) = .complete (reply, rest) := by
  cases reply with
  | simple text =>
    rw [encode, headerLine_append, decodeWith_simple, frontLine_text plain, Verdict.bind_complete,
      Utf8.lossy_encode]
  | error text =>
    rw [encode, headerLine_append, decodeWith_error, frontLine_text plain, Verdict.bind_complete,
      Utf8.lossy_encode]
  | integer n =>
    rw [encode, headerLine_append, decodeWith_integer, frontNumber_ofInt, Verdict.bind_complete]
  | bulk bytes =>
    rw [encode, encodeBulk, List.append_assoc, List.append_assoc, headerLine_append,
      decodeWith_bulk, frontNumber_decimal plain, Verdict.bind_complete, ← List.append_assoc]
    exact decodeBulk_payload plain rest
  | null =>
    rw [encode, headerLine_append, decodeWith_bulk, frontNumber_none, Verdict.bind_complete]
    rfl
  | array items => cases flat
  | nullArray => cases flat

theorem decodeArray_none (read : Bytes → Verdict (Reply × Bytes)) (rest : Bytes) :
    decodeArray read (Utf8.encode "-1" ++ Bytes.crlf ++ rest) = .complete (nullArray, rest) := by
  rw [decodeArray, frontNumber_none]
  rfl

theorem decodeArray_items {read : Bytes → Verdict (Reply × Bytes)} {items : List Reply}
    (fits : items.length ≤ maxLength) {rest : Bytes}
    (all : decodeItems read items.length (encodeItems items ++ rest) = .complete (items, rest)) :
    decodeArray read (decimal items.length ++ Bytes.crlf ++ (encodeItems items ++ rest)) =
      .complete (array items, rest) := by
  obtain ⟨value, some, sound⟩ := length_ofNat fits
  rw [decodeArray, frontNumber_decimal fits, Verdict.bind_complete]
  dsimp only
  rw [if_neg some, if_neg sound, value, all]
  rfl

theorem decodeWithin_encode_of_flat (n : Nat) {reply : Reply} (flat : reply.depth = 0)
    (plain : reply.Plain) (rest : Bytes) :
    decodeWithin n (reply.encode ++ rest) = .complete (reply, rest) := by
  cases n with
  | zero => exact decodeWith_encode _ flat plain rest
  | succ n => exact decodeWith_encode _ flat plain rest

mutual

/-- with levels enough for its arrays, a reply is what is read off its bytes -/
theorem decodeWithin_encode : ∀ (reply : Reply) (n : Nat), reply.depth ≤ n → reply.Plain →
    ∀ rest, decodeWithin n (reply.encode ++ rest) = .complete (reply, rest)
  | array items, n, levels, plain, rest => by
    rw [depth] at levels
    rw [Plain] at plain
    obtain ⟨n, rfl⟩ : ∃ m, n = m + 1 := ⟨n - 1, by omega⟩
    have all := decodeItems_encodeItems items n (by omega) plain.2 rest
    rw [encode, List.append_assoc, headerLine_append, decodeWithin_array]
    exact decodeArray_items plain.1 all
  | nullArray, n, levels, _, rest => by
    rw [depth] at levels
    obtain ⟨n, rfl⟩ : ∃ m, n = m + 1 := ⟨n - 1, by omega⟩
    rw [encode, headerLine_append, decodeWithin_array]
    exact decodeArray_none (decodeWithin n) rest
  | simple _, n, _, plain, rest => decodeWithin_encode_of_flat n rfl plain rest
  | error _, n, _, plain, rest => decodeWithin_encode_of_flat n rfl plain rest
  | integer _, n, _, plain, rest => decodeWithin_encode_of_flat n rfl plain rest
  | bulk _, n, _, plain, rest => decodeWithin_encode_of_flat n rfl plain rest
  | null, n, _, plain, rest => decodeWithin_encode_of_flat n rfl plain rest

theorem decodeItems_encodeItems : ∀ (items : List Reply) (n : Nat), depthItems items ≤ n →
    PlainItems items → ∀ rest,
    decodeItems (decodeWithin n) items.length (encodeItems items ++ rest) = .complete (items, rest)
  | [], _, _, _, rest => by rw [encodeItems, List.nil_append]; rfl
  | item :: items, n, levels, plain, rest => by
    rw [depthItems, Nat.max_le] at levels
    rw [PlainItems] at plain
    have first := decodeWithin_encode item n levels.1 plain.1 (encodeItems items ++ rest)
    have others := decodeItems_encodeItems items n levels.2 plain.2 rest
    rw [encodeItems, List.append_assoc, List.length_cons, decodeItems, first,
      Verdict.bind_complete]
    dsimp only
    rw [others]
    rfl

end

/-! ## what is read can be written -/

/-- a reply with at most `n` arrays inside each other that the wire can carry -/
def Within (n : Nat) (reply : Reply) : Prop := reply.depth ≤ n ∧ reply.Plain

theorem length_le (n : Int64) : n.toInt.toNat ≤ maxLength := by
  have high : n.toInt < 0x8000000000000000 := n.toInt_lt
  show n.toInt.toNat ≤ 0x7fffffffffffffff
  omega

section
variable {bs rest : Bytes} {reply : Reply}

/-- a line read as text is in one line -/
theorem plain_lossy {line after : Bytes} (h : frontLine bs = .complete (line, after)) :
    ¬ Utf8.lineEnd <:+: (Utf8.lossy line).toList :=
  fun broken => (frontLine_eq_complete_iff.mp h).2 (Utf8.crlf_of_lossy broken)

theorem within_of_decodeBulk {n : Int64} (h : decodeBulk n bs = .complete (reply, rest))
    (levels : Nat) : Within levels reply := by
  unfold decodeBulk at h
  split at h
  · cases h
    exact ⟨Nat.zero_le _, trivial⟩
  · split at h
    · cases h
    · dsimp only at h
      split at h
      · cases h
      · split at h
        · cases h
          refine ⟨Nat.zero_le _, ?_⟩
          rw [Plain, List.length_take]
          exact Nat.le_trans (Nat.min_le_left _ _) (length_le n)
        · cases h

section
variable {read : Bytes → Verdict (Reply × Bytes)} {levels : Nat}

theorem within_of_decodeItems
    (each : ∀ bs reply rest, read bs = .complete (reply, rest) → Within levels reply) {n : Nat}
    {items : List Reply} (h : decodeItems read n bs = .complete (items, rest)) :
    items.length = n ∧ depthItems items ≤ levels ∧ PlainItems items := by
  induction n generalizing bs items with
  | zero =>
    cases h
    exact ⟨rfl, Nat.zero_le _, trivial⟩
  | succ n ih =>
    rw [decodeItems] at h
    obtain ⟨⟨item, behind⟩, first, h⟩ := Verdict.bind_eq_complete h
    obtain ⟨⟨items', behind'⟩, others, h⟩ := Verdict.bind_eq_complete h
    cases h
    obtain ⟨depth, plain⟩ := each _ _ _ first
    obtain ⟨length, depths, plains⟩ := ih others
    refine ⟨by rw [List.length_cons, length], ?_, plain, plains⟩
    rw [depthItems]
    exact Nat.max_le.mpr ⟨depth, depths⟩

theorem within_of_decodeArray
    (each : ∀ bs reply rest, read bs = .complete (reply, rest) → Within levels reply)
    (h : decodeArray read bs = .complete (reply, rest)) : Within (levels + 1) reply := by
  obtain ⟨⟨n, after⟩, _, h⟩ := Verdict.bind_eq_complete h
  dsimp only at h
  split at h
  · cases h
    exact ⟨Nat.le_add_left 1 levels, trivial⟩
  · split at h
    · cases h
    · obtain ⟨⟨items, behind⟩, all, h⟩ := Verdict.bind_eq_complete h
      cases h
      obtain ⟨length, depths, plains⟩ := within_of_decodeItems each all
      refine ⟨Nat.succ_le_succ depths, ?_, plains⟩
      rw [length]
      exact length_le n

theorem within_of_decodeWith
    (arrays : ∀ bs reply rest, read bs = .complete (reply, rest) → Within levels reply)
    (h : decodeWith read bs = .complete (reply, rest)) : Within levels reply := by
  cases bs with
  | nil => cases h
  | cons t body =>
    rw [decodeWith] at h
    split at h
    · obtain ⟨⟨line, after⟩, found, h⟩ := Verdict.bind_eq_complete h
      cases h
      exact ⟨Nat.zero_le _, plain_lossy found⟩
    split at h
    · obtain ⟨⟨line, after⟩, found, h⟩ := Verdict.bind_eq_complete h
      cases h
      exact ⟨Nat.zero_le _, plain_lossy found⟩
    split at h
    · obtain ⟨⟨n, after⟩, _, h⟩ := Verdict.bind_eq_complete h
      cases h
      exact ⟨Nat.zero_le _, trivial⟩
    split at h
    · obtain ⟨⟨n, after⟩, _, h⟩ := Verdict.bind_eq_complete h
      exact within_of_decodeBulk h levels
    split at h
    · exact arrays _ _ _ h
    · cases h

end

theorem within_of_decodeWithin {n : Nat} (h : decodeWithin n bs = .complete (reply, rest)) :
    Within n reply := by
  induction n generalizing bs reply rest with
  | zero =>
    have deep : ∀ (bs : Bytes) (reply : Reply) (rest : Bytes),
        (.malformed .tooDeep : Verdict (Reply × Bytes)) = .complete (reply, rest) →
          Within 0 reply := nofun
    exact within_of_decodeWith deep h
  | succ n ih =>
    have items : ∀ bs reply rest, decodeArray (decodeWithin n) bs = .complete (reply, rest) →
        Within (n + 1) reply :=
      fun _ _ _ read => within_of_decodeArray (fun _ _ _ item => ih item) read
    exact within_of_decodeWith items h

theorem wireable_of_decode (h : decode bs = .complete (reply, rest)) : reply.Wireable := by
  obtain ⟨depth, plain⟩ := within_of_decodeWithin h
  exact ⟨depth, plain⟩

end

/-- a reply that the wire can carry is what is read off its bytes, and every reply that is read off
any bytes is one of these -/
theorem decode_encode :
    (∀ reply : Reply, reply.Wireable → ∀ rest,
      decode (reply.encode ++ rest) = .complete (reply, rest)) ∧
    ∀ bs reply rest, decode bs = .complete (reply, rest) →
      reply.Wireable ∧ ∀ more, decode (reply.encode ++ more) = .complete (reply, more) := by
  constructor
  · intro reply wireable rest
    exact decodeWithin_encode reply maxDepth wireable.depth wireable.plain rest
  · intro bs reply rest read
    have wireable := wireable_of_decode read
    exact ⟨wireable, decodeWithin_encode reply maxDepth wireable.depth wireable.plain⟩

/-- line ends inside a byte string, both nulls and the least number, before other bytes; and a number
with a plus sign and zeros, next to bytes that are no text -/
theorem decode_encode_of_array :
    let reply := array [simple "ok", bulk [0x0D, 0x0A], null, nullArray, array [],
      integer (Int64.ofInt (-0x8000000000000000))]
    let wire : Bytes := [0x2A, 0x32, 0x0D, 0x0A, 0x3A, 0x2B, 0x30, 0x37, 0x0D, 0x0A,
      0x2D, 0xFF, 0x0D, 0x0A]
    let read := array [integer 7, error "\uFFFD"]
    reply.Wireable ∧ decode (reply.encode ++ [0x2B]) = .complete (reply, [0x2B]) ∧
      decode wire = .complete (read, []) ∧ read.Wireable ∧ read.encode ≠ wire ∧
        decode (read.encode ++ [0x2B]) = .complete (read, [0x2B]) := by
  intro reply wire read
  have line : ¬ Utf8.lineEnd <:+: "ok".toList := by decide
  have short : [0x0D, 0x0A].length ≤ maxLength := by decide
  have few : ∀ n, n ≤ 6 → n ≤ maxLength := fun n le => Nat.le_trans le (by decide)
  have wireable : reply.Wireable :=
    ⟨by decide, few 6 (by decide), line, short, trivial, trivial, ⟨few 0 (by decide), trivial⟩,
      trivial, trivial⟩
  have found : decode wire = .complete (read, []) := by decide +kernel
  have back := decode_encode.2 wire read [] found
  exact ⟨wireable, decode_encode.1 reply wireable [0x2B], found, back.1, by decide +kernel,
    back.2 [0x2B]⟩

end Reply
end RespLink
