import RespLink.Proofs.Decodings

/-!
# Strict and lossy reading

Both readings of UTF-8 take a character only where its bytes stand: the strict one succeeds on
well-formed bytes alone, and what the lossy one gives is the text of the bytes unless it holds a
replacement character.

* `form_of_lead`, `head_fits`   what is read as a character fits one of the forms;
* `encodeChar_of_head`          and is the encoding of that character;
* `decode?_eq_ok_iff`           the strict reading inverts the encoding;
* `encode_lossy_of_sound`       so does the lossy one, as long as nothing was replaced;
* `Encoding.decode_eq_iff_of_ascii`   bytes that read as a text in ASCII are its bytes;
* `Encoding.Faithful`           bytes that an encoding reads as the strict reading does.
-/

namespace RespLink

namespace Utf8

/-! ## what is read as a character -/

/-- the first byte of a longer sequence promises one of the forms -/
theorem form_of_lead {b : UInt8} {l : Lead} (h : lead b = some l) :
    ∃ form ∈ forms, ∃ range ∈ form.head?, range.1 ≤ b.toNat ∧ b.toNat ≤ range.2 ∧
      form.tail = (l.low.toNat, l.high.toNat) :: List.replicate (l.follow - 1) (0x80, 0xBF) := by
  have each : ∀ n : Fin 256, ∀ l ∈ lead (UInt8.ofNat n.val),
      ∃ form ∈ forms, ∃ range ∈ form.head?, range.1 ≤ n.val ∧ n.val ≤ range.2 ∧
        form.tail = (l.low.toNat, l.high.toNat) :: List.replicate (l.follow - 1) (0x80, 0xBF) := by
    decide +kernel
  refine each ⟨b.toNat, b.toNat_lt⟩ l ?_
  rw [UInt8.ofNat_toNat]
  exact h

theorem followed_fits {n bits more read : Nat} {rest : Bytes} {c : Char}
    (h : followed n bits more rest = .char c read) :
    read = more + n ∧ Fits (rest.take n) (List.replicate n (0x80, 0xBF)) := by
  induction n generalizing bits more rest with
  | zero =>
    cases h
    exact ⟨rfl, .nil⟩
  | succ n ih =>
    cases rest with
    | nil => cases h
    | cons b rest =>
      rw [followed] at h
      split at h
      · next range =>
        obtain ⟨rfl, fits⟩ := ih h
        exact ⟨by omega, .cons ⟨UInt8.le_iff_toNat_le.mp range.1, UInt8.le_iff_toNat_le.mp range.2⟩ fits⟩
      · cases h

theorem head_fits {b : UInt8} {rest : Bytes} {c : Char} {more : Nat} (h : head b rest = .char c more) :
    ∃ form ∈ forms, Fits (b :: rest.take more) form := by
  rw [head] at h
  split at h
  · next ascii =>
    cases h
    have low : b.toNat ≤ 0x7F := Nat.le_of_lt_succ (UInt8.lt_iff_toNat_lt.mp ascii)
    exact ⟨[(0x00, 0x7F)], by decide, .cons ⟨Nat.zero_le _, low⟩ .nil⟩
  split at h
  · cases h
  next l promised =>
  split at h
  · cases h
  next d rest =>
  split at h
  · next second =>
    obtain ⟨form, known, range, first, low, high, tail⟩ := form_of_lead promised
    obtain ⟨rfl, others⟩ := followed_fits h
    have whole : form = range :: form.tail := (List.cons_head?_tail first).symm
    refine ⟨form, known, ?_⟩
    rw [whole, tail, Nat.add_comm 1, List.take_succ_cons]
    exact .cons ⟨low, high⟩
      (.cons ⟨UInt8.le_iff_toNat_le.mp second.1, UInt8.le_iff_toNat_le.mp second.2⟩ others)
  · cases h

/-- the sequence is the encoding of a character, and that is read off it whatever follows -/
theorem encodeChar_of_head {b : UInt8} {rest : Bytes} {c : Char} {more : Nat}
    (h : head b rest = .char c more) : String.utf8EncodeChar c = b :: rest.take more := by
  obtain ⟨form, known, fits⟩ := head_fits h
  obtain ⟨x, bytes⟩ := exists_char_of_fits known fits
  obtain ⟨b', tail, own, front⟩ := head_encodeChar x
  obtain ⟨rfl, rfl⟩ := List.cons.inj (own.symm.trans bytes)
  have same := front (rest.drop more)
  rw [List.take_append_drop, h] at same
  obtain ⟨rfl, -⟩ := Head.char.inj same
  exact bytes

/-! ## reading and writing again -/

theorem encodeChars_of_decodeFrom {pos skip : Nat} {bs : Bytes} {cs : List Char}
    (h : decodeFrom pos skip bs = .ok cs) : encodeChars cs = bs.drop skip := by
  induction bs generalizing pos skip cs with
  | nil =>
    cases skip <;> cases h <;> rfl
  | cons b rest ih =>
    cases skip with
    | succ skip => exact ih h
    | zero =>
      rw [decodeFrom] at h
      split at h
      · next c more front =>
        cases others : decodeFrom (pos + 1) more rest with
        | error fault =>
          rw [others] at h
          cases h
        | ok ds =>
          rw [others] at h
          cases h
          rw [encodeChars_cons, encodeChar_of_head front, ih others, List.cons_append,
            List.take_append_drop, List.drop_zero]
      · cases h
      · cases h

/-- **The strict reading gives a text if and only if these are its bytes.** -/
theorem decode?_eq_ok_iff {bs : Bytes} {text : String} : decode? bs = .ok text ↔ bs = encode text := by
  constructor
  · intro read
    rw [decode?] at read
    cases chars : decodeFrom 0 0 bs with
    | error fault =>
      rw [chars] at read
      cases read
    | ok cs =>
      rw [chars] at read
      cases read
      rw [encode, String.toList_ofList, encodeChars_of_decodeFrom chars, List.drop_zero]
  · rintro rfl
    exact decode?_encode text

theorem wellFormed_iff_decode? {bs : Bytes} : WellFormed bs ↔ decode? bs = .ok (lossy bs) := by
  rw [decode?_eq_ok_iff, eq_comm, encode_lossy_iff]

theorem encodeChars_lossyFrom {skip : Nat} {bs : Bytes} (sound : replacement ∉ lossyFrom skip bs) :
    encodeChars (lossyFrom skip bs) = bs.drop skip := by
  induction bs generalizing skip with
  | nil => cases skip <;> rfl
  | cons b rest ih =>
    cases skip with
    | succ skip => exact ih sound
    | zero =>
      rw [lossyFrom] at sound ⊢
      split at sound
      · next c more front =>
        have others := ih fun inside => sound (List.mem_cons_of_mem c inside)
        rw [encodeChars_cons, encodeChar_of_head front, others, List.cons_append,
          List.take_append_drop, List.drop_zero]
      · exact absurd List.mem_cons_self sound
      · exact absurd List.mem_cons_self sound

/-- nothing was replaced, so nothing was lost -/
theorem encode_lossy_of_sound {bs : Bytes} (sound : replacement ∉ (lossy bs).toList) :
    encode (lossy bs) = bs := by
  rw [lossy, String.toList_ofList] at sound
  rw [encode, lossy, String.toList_ofList, encodeChars_lossyFrom sound, List.drop_zero]

end Utf8

namespace Encoding

/-- ASCII is read off its own bytes and no others -/
theorem decode_eq_iff_of_ascii {e : Encoding} {bs : Bytes} {text : String}
    (ascii : ∀ c ∈ text.toList, c.toNat < 0x80) : e.decode bs = text ↔ bs = Utf8.encode text := by
  constructor
  · rintro rfl
    cases e with
    | utf8 =>
      refine (Utf8.encode_lossy_of_sound fun replaced => ?_).symm
      exact absurd (ascii _ replaced) (by decide)
    | latin1 =>
      rw [Utf8.encode, encodeChars_of_ascii ascii]
      exact (encode_decode_latin1 bs).symm
  · rintro rfl
    exact Arg.decode_of_ascii e ascii

/-- UTF-8 without a fault, or ASCII if each byte is a character of its own -/
def Faithful : Encoding → Bytes → Prop
  | utf8, bs => Utf8.WellFormed bs
  | latin1, bs => ∀ b ∈ bs, b < 0x80

instance : ∀ (e : Encoding) (bs : Bytes), Decidable (e.Faithful bs)
  | utf8, bs => inferInstanceAs (Decidable (Utf8.WellFormed bs))
  | latin1, bs => List.decidableBAll (fun b : UInt8 => b < 0x80) bs

theorem toNat_latin1Char (b : UInt8) : (latin1Char b).toNat = b.toNat :=
  Utf8.toNat_charOfNat (.inl (Nat.lt_trans b.toNat_lt (by decide)))

theorem faithful_iff {e : Encoding} {bs : Bytes} :
    e.Faithful bs ↔ Utf8.decode? bs = .ok (e.decode bs) := by
  cases e with
  | utf8 => exact Utf8.wellFormed_iff_decode?
  | latin1 =>
    have small (b : UInt8) : b < 0x80 ↔ (latin1Char b).toNat < 0x80 := by
      rw [toNat_latin1Char]
      exact UInt8.lt_iff_toNat_lt
    have text : (latin1.decode bs).toList = bs.map latin1Char := String.toList_ofList
    rw [Utf8.decode?_eq_ok_iff]
    constructor
    · intro ascii
      refine (decode_eq_iff_of_ascii (e := latin1) fun c inside => ?_).mp rfl
      rw [text] at inside
      obtain ⟨b, member, rfl⟩ := List.mem_map.mp inside
      exact (small b).mp (ascii b member)
    · intro own b member
      have even : (Utf8.encodeChars (bs.map latin1Char)).length = (bs.map latin1Char).length := by
        rw [List.length_map, ← text]
        exact congrArg List.length own.symm
      exact (small b).mpr (Utf8.ascii_of_length even _ (List.mem_map_of_mem member))

end Encoding
end RespLink
