import RespLink.Proofs.Encodings

/-!
# Which bytes survive an encoding

Bytes are read as text and the text is written again.  One byte per character loses nothing.  UTF-8
loses what is not well-formed: the replacement character stands for it, and is written as itself.

* `Utf8.forms`            the sequences of bytes that are one character, by the ranges of their bytes;
* `Utf8.WellFormed`       one such sequence after another;
* `exists_char_of_fits`, `fits_encodeChar`   the sequences that fit a form are the encodings of the
                          characters;
* `encode_lossy_iff`      bytes come back if and only if they are well-formed;
* `Encoding.round_trips`  both encodings, for bytes and for texts.
-/

namespace RespLink

namespace Utf8

/-! ## the forms of a character -/

/-- a form holds the range of each byte, both ends included.  The range of the second byte keeps out
what a shorter sequence could say (after `E0` and `F0`), the surrogates (after `ED`) and what lies
above the last character (after `F4`). -/
def forms : List (List (Nat × Nat)) :=
  [[(0x00, 0x7F)],
   [(0xC2, 0xDF), (0x80, 0xBF)],
   [(0xE0, 0xE0), (0xA0, 0xBF), (0x80, 0xBF)],
   [(0xE1, 0xEC), (0x80, 0xBF), (0x80, 0xBF)],
   [(0xED, 0xED), (0x80, 0x9F), (0x80, 0xBF)],
   [(0xEE, 0xEF), (0x80, 0xBF), (0x80, 0xBF)],
   [(0xF0, 0xF0), (0x90, 0xBF), (0x80, 0xBF), (0x80, 0xBF)],
   [(0xF1, 0xF3), (0x80, 0xBF), (0x80, 0xBF), (0x80, 0xBF)],
   [(0xF4, 0xF4), (0x80, 0x8F), (0x80, 0xBF), (0x80, 0xBF)]]

/-- as many bytes as ranges, each in its range -/
def Fits : Bytes → List (Nat × Nat) → Prop :=
  List.Forall₂ fun b range => range.1 ≤ b.toNat ∧ b.toNat ≤ range.2

inductive WellFormed : Bytes → Prop
  | nil : WellFormed []
  | append {front rest : Bytes} {form : List (Nat × Nat)} (known : form ∈ forms)
      (fits : Fits front form) (others : WellFormed rest) : WellFormed (front ++ rest)

/-! ## every character has a form -/

theorem within_ofNat {n low high : Nat} (small : n < 256) (from' : low ≤ n) (upTo : n ≤ high) :
    low ≤ (UInt8.ofNat n).toNat ∧ (UInt8.ofNat n).toNat ≤ high := by
  rw [toNat_ofNat small]
  exact ⟨from', upTo⟩

/-- six bits after the two that mark a further byte -/
theorem within_tail (n : Nat) :
    0x80 ≤ (UInt8.ofNat (n % 64 + 0x80)).toNat ∧ (UInt8.ofNat (n % 64 + 0x80)).toNat ≤ 0xBF :=
  within_ofNat (by omega) (by omega) (by omega)

/-- in each width the forms divide the characters between them; there is none from `D800` to `DFFF` -/
theorem fits_encodeChar (c : Char) : ∃ form ∈ forms, Fits (String.utf8EncodeChar c) form := by
  have range := valid c
  by_cases one : c.toNat < 0x80
  · rw [encodeChar_one one]
    refine ⟨[(0x00, 0x7F)], by decide, .cons (within_ofNat ?_ ?_ ?_) .nil⟩ <;> omega
  by_cases two : c.toNat < 0x800
  · rw [encodeChar_two (by omega) two]
    refine ⟨[(0xC2, 0xDF), (0x80, 0xBF)], by decide, .cons (within_ofNat ?_ ?_ ?_)
      (.cons (within_tail _) .nil)⟩ <;> omega
  by_cases three : c.toNat < 0x10000
  · rw [encodeChar_three (by omega) three]
    by_cases first : c.toNat < 0x1000
    · refine ⟨[(0xE0, 0xE0), (0xA0, 0xBF), (0x80, 0xBF)], by decide, .cons (within_ofNat ?_ ?_ ?_)
        (.cons (within_ofNat ?_ ?_ ?_) (.cons (within_tail _) .nil))⟩ <;> omega
    by_cases second : c.toNat < 0xD000
    · refine ⟨[(0xE1, 0xEC), (0x80, 0xBF), (0x80, 0xBF)], by decide, .cons (within_ofNat ?_ ?_ ?_)
        (.cons (within_tail _) (.cons (within_tail _) .nil))⟩ <;> omega
    by_cases third : c.toNat < 0xE000
    · refine ⟨[(0xED, 0xED), (0x80, 0x9F), (0x80, 0xBF)], by decide, .cons (within_ofNat ?_ ?_ ?_)
        (.cons (within_ofNat ?_ ?_ ?_) (.cons (within_tail _) .nil))⟩ <;> omega
    · refine ⟨[(0xEE, 0xEF), (0x80, 0xBF), (0x80, 0xBF)], by decide, .cons (within_ofNat ?_ ?_ ?_)
        (.cons (within_tail _) (.cons (within_tail _) .nil))⟩ <;> omega
  rw [encodeChar_four (by omega)]
  by_cases first : c.toNat < 0x40000
  · refine ⟨[(0xF0, 0xF0), (0x90, 0xBF), (0x80, 0xBF), (0x80, 0xBF)], by decide,
      .cons (within_ofNat ?_ ?_ ?_) (.cons (within_ofNat ?_ ?_ ?_)
        (.cons (within_tail _) (.cons (within_tail _) .nil)))⟩ <;> omega
  by_cases second : c.toNat < 0x100000
  · refine ⟨[(0xF1, 0xF3), (0x80, 0xBF), (0x80, 0xBF), (0x80, 0xBF)], by decide,
      .cons (within_ofNat ?_ ?_ ?_) (.cons (within_tail _)
        (.cons (within_tail _) (.cons (within_tail _) .nil)))⟩ <;> omega
  · refine ⟨[(0xF4, 0xF4), (0x80, 0x8F), (0x80, 0xBF), (0x80, 0xBF)], by decide,
      .cons (within_ofNat ?_ ?_ ?_) (.cons (within_ofNat ?_ ?_ ?_)
        (.cons (within_tail _) (.cons (within_tail _) .nil)))⟩ <;> omega

/-! ## every sequence of a form is a character -/

section
variable {a b c d : UInt8}

theorem ofNat_eq {n : Nat} (same : n = b.toNat) : UInt8.ofNat n = b := by
  rw [same, UInt8.ofNat_toNat]

theorem exists_char_one (ascii : a.toNat ≤ 0x7F) : ∃ x, String.utf8EncodeChar x = [a] := by
  have value : (Char.ofNat a.toNat).toNat = a.toNat := toNat_charOfNat (.inl (by omega))
  refine ⟨Char.ofNat a.toNat, ?_⟩
  rw [encodeChar_one (by omega), value, UInt8.ofNat_toNat]

theorem exists_char_two (first : 0xC2 ≤ a.toNat ∧ a.toNat ≤ 0xDF)
    (second : 0x80 ≤ b.toNat ∧ b.toNat ≤ 0xBF) : ∃ x, String.utf8EncodeChar x = [a, b] := by
  have value := toNat_charOfNat (n := (a.toNat - 0xC0) * 64 + (b.toNat - 0x80)) (.inl (by omega))
  refine ⟨Char.ofNat ((a.toNat - 0xC0) * 64 + (b.toNat - 0x80)), ?_⟩
  rw [encodeChar_two (by omega) (by omega), ofNat_eq (b := a) (by omega), ofNat_eq (b := b) (by omega)]

/-- what three bytes say is too much for two, and no surrogate -/
theorem exists_char_three (first : 0xE0 ≤ a.toNat ∧ a.toNat ≤ 0xEF)
    (second : 0x80 ≤ b.toNat ∧ b.toNat ≤ 0xBF) (third : 0x80 ≤ c.toNat ∧ c.toNat ≤ 0xBF)
    (long : a.toNat = 0xE0 → 0xA0 ≤ b.toNat) (sound : a.toNat = 0xED → b.toNat ≤ 0x9F) :
    ∃ x, String.utf8EncodeChar x = [a, b, c] := by
  have value := toNat_charOfNat
    (n := ((a.toNat - 0xE0) * 64 + (b.toNat - 0x80)) * 64 + (c.toNat - 0x80))
    (show _ < 0xD800 ∨ 0xDFFF < _ ∧ _ < 0x110000 by omega)
  refine ⟨Char.ofNat (((a.toNat - 0xE0) * 64 + (b.toNat - 0x80)) * 64 + (c.toNat - 0x80)), ?_⟩
  rw [encodeChar_three (by omega) (by omega), ofNat_eq (b := a) (by omega),
    ofNat_eq (b := b) (by omega), ofNat_eq (b := c) (by omega)]

/-- what four bytes say is too much for three, and no more than the last character -/
theorem exists_char_four (first : 0xF0 ≤ a.toNat ∧ a.toNat ≤ 0xF4)
    (second : 0x80 ≤ b.toNat ∧ b.toNat ≤ 0xBF) (third : 0x80 ≤ c.toNat ∧ c.toNat ≤ 0xBF)
    (fourth : 0x80 ≤ d.toNat ∧ d.toNat ≤ 0xBF) (long : a.toNat = 0xF0 → 0x90 ≤ b.toNat)
    (sound : a.toNat = 0xF4 → b.toNat ≤ 0x8F) : ∃ x, String.utf8EncodeChar x = [a, b, c, d] := by
  have value := toNat_charOfNat
    (n := (((a.toNat - 0xF0) * 64 + (b.toNat - 0x80)) * 64 + (c.toNat - 0x80)) * 64 + (d.toNat - 0x80))
    (show _ < 0xD800 ∨ 0xDFFF < _ ∧ _ < 0x110000 by omega)
  refine ⟨Char.ofNat ((((a.toNat - 0xF0) * 64 + (b.toNat - 0x80)) * 64 + (c.toNat - 0x80)) * 64
    + (d.toNat - 0x80)), ?_⟩
  rw [encodeChar_four (by omega), ofNat_eq (b := a) (by omega), ofNat_eq (b := b) (by omega),
    ofNat_eq (b := c) (by omega), ofNat_eq (b := d) (by omega)]

end

theorem exists_char_of_fits {front : Bytes} {form : List (Nat × Nat)} (known : form ∈ forms)
    (fits : Fits front form) : ∃ x, String.utf8EncodeChar x = front := by
  simp only [forms, List.mem_cons, List.not_mem_nil, or_false] at known
  obtain rfl | rfl | rfl | rfl | rfl | rfl | rfl | rfl | rfl := known
  · obtain _ | ⟨first, _ | _⟩ := fits
    exact exists_char_one first.2
  · obtain _ | ⟨first, _ | ⟨second, _ | _⟩⟩ := fits
    exact exists_char_two first second
  -- four forms of three bytes and three of four bytes, which differ in their bounds
  iterate 4
    · obtain _ | ⟨first, _ | ⟨second, _ | ⟨third, _ | _⟩⟩⟩ := fits
      dsimp only at first second third
      apply exists_char_three <;> omega
  iterate 3
    · obtain _ | ⟨first, _ | ⟨second, _ | ⟨third, _ | ⟨fourth, _ | _⟩⟩⟩⟩ := fits
      dsimp only at first second third fourth
      apply exists_char_four <;> omega

/-! ## well-formed bytes -/

theorem wellFormed_encodeChars (cs : List Char) : WellFormed (encodeChars cs) := by
  induction cs with
  | nil => exact .nil
  | cons c cs ih =>
    obtain ⟨form, known, fits⟩ := fits_encodeChar c
    rw [encodeChars_cons]
    exact .append known fits ih

theorem WellFormed.exists_chars {bs : Bytes} (h : WellFormed bs) : ∃ cs, encodeChars cs = bs := by
  induction h with
  | nil => exact ⟨[], rfl⟩
  | append known fits _ ih =>
    obtain ⟨c, first⟩ := exists_char_of_fits known fits
    obtain ⟨cs, others⟩ := ih
    exact ⟨c :: cs, by rw [encodeChars_cons, first, others]⟩

/-- **What reads as a text and is written again comes back if and only if it was well-formed.** -/
theorem encode_lossy_iff (bs : Bytes) : encode (lossy bs) = bs ↔ WellFormed bs := by
  constructor
  · intro back
    rw [← back]
    exact wellFormed_encodeChars _
  · intro sound
    obtain ⟨cs, rfl⟩ := sound.exists_chars
    rw [lossy, lossyFrom_encodeChars, encode, String.toList_ofList]

instance : DecidablePred WellFormed := fun bs => decidable_of_iff _ (encode_lossy_iff bs)

/-- a NUL in two bytes and a surrogate are no text; the replacement character is -/
example : ¬ WellFormed [0xC0, 0x80] ∧ ¬ WellFormed [0xED, 0xA0, 0x80] ∧
    WellFormed [0xEF, 0xBF, 0xBD] := by decide

end Utf8

namespace Encoding

/-! ## one byte per character -/

theorem latin1Byte_latin1Char (b : UInt8) : latin1Byte (latin1Char b) = b := by
  have small : b.toNat < 256 := b.toNat_lt
  have value : (latin1Char b).toNat = b.toNat := Utf8.toNat_charOfNat (.inl (by omega))
  rw [latin1Byte, value, if_pos small, UInt8.ofNat_toNat]

theorem encode_decode_latin1 (bs : Bytes) : latin1.encode (latin1.decode bs) = bs := by
  show (String.ofList (bs.map latin1Char)).toList.map latin1Byte = bs
  rw [String.toList_ofList, List.map_map]
  exact List.map_id'' latin1Byte_latin1Char bs

/-- **Round trips under one encoding.**  With one byte per character all bytes come back, and the
texts with no character above U+00FF; with UTF-8 the well-formed bytes and all texts. -/
theorem round_trips :
    (∀ bs, latin1.encode (latin1.decode bs) = bs) ∧
    (∀ bs, utf8.encode (utf8.decode bs) = bs ↔ Utf8.WellFormed bs) ∧
    (∀ text, utf8.decode (utf8.encode text) = text) ∧
    ∀ text, latin1.decode (latin1.encode text) = text ↔ ∀ c ∈ text.toList, c.toNat ≤ 0xFF := by
  refine ⟨encode_decode_latin1, Utf8.encode_lossy_iff, Utf8.lossy_encode, fun text => ?_⟩
  rw [decode_encode_iff]
  exact forall₂_congr fun _ _ => Nat.lt_succ_iff

end Encoding
end RespLink
