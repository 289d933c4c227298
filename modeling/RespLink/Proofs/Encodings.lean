import Mathlib.Data.String.Basic
import RespLink.Proofs.Characters
import RespLink.Proofs.Numerals
import RespLink.Request

/-!
# Which texts survive an encoding

A text is written under one encoding and read under another, or the same.  It comes back exactly
if none of its characters is too high for the pair.

* `Encoding.limit`        the characters below it survive;
* `decode_encode_iff`     a text comes back if and only if all of its characters do;
* `Arg.Legible`           an argument whose bytes still read as the name it gives to a channel: all
                          but texts always do, since bytes are read as they are and a number is
                          written in ASCII;
* `Arg.decode_toBytes_iff`  the bytes of exactly the legible ones do.
-/

namespace RespLink

/-! ## ASCII -/

theorem ascii_of_all {cs : List Char} (h : cs.all (fun c => c.toNat < 0x80) = true) :
    ∀ c ∈ cs, c.toNat < 0x80 :=
  fun c mem => of_decide_eq_true (List.all_eq_true.mp h c mem)

namespace Utf8
variable {c : Char} {cs : List Char}

/-- no character has fewer than one byte, and only those of ASCII have one -/
theorem length_encodeChar (c : Char) :
    1 ≤ (String.utf8EncodeChar c).length ∧ ((String.utf8EncodeChar c).length = 1 → c.toNat < 0x80) := by
  rw [String.length_utf8EncodeChar]
  refine ⟨c.utf8Size_pos, fun one => ?_⟩
  exact Nat.lt_succ_of_le (Char.utf8Size_eq_one_iff.mp one)

theorem length_le_encodeChars (cs : List Char) : cs.length ≤ (encodeChars cs).length := by
  induction cs with
  | nil => exact Nat.le_refl 0
  | cons c cs ih =>
    have one := (length_encodeChar c).1
    rw [encodeChars_cons, List.length_append, List.length_cons]
    omega

/-- a text with as many bytes as characters is ASCII -/
theorem ascii_of_length (h : (encodeChars cs).length = cs.length) : ∀ c ∈ cs, c.toNat < 0x80 := by
  induction cs with
  | nil => nofun
  | cons c cs ih =>
    have one := length_encodeChar c
    have others := length_le_encodeChars cs
    rw [encodeChars_cons, List.length_append, List.length_cons] at h
    intro d mem
    obtain rfl | mem := List.mem_cons.mp mem
    · exact one.2 (by omega)
    · exact ih (by omega) d mem

/-! ## reading bytes above 0x7F -/

theorem followed_length {n bits more read : Nat} {rest : Bytes} {c : Char}
    (h : followed n bits more rest = .char c read) : more ≤ read ∧ read ≤ more + rest.length := by
  induction n generalizing bits more rest with
  | zero =>
    rw [followed] at h
    cases h
    exact ⟨Nat.le_refl _, Nat.le_add_right _ _⟩
  | succ n ih =>
    cases rest with
    | nil => cases h
    | cons b rest =>
      rw [followed] at h
      split at h
      · have on := ih h
        rw [List.length_cons]
        omega
      · cases h

/-- a character that starts above 0x7F takes a second byte at least, and no more than there are -/
theorem head_length {b : UInt8} {rest : Bytes} {more : Nat} (high : ¬ b < 0x80)
    (h : head b rest = .char c more) : 1 ≤ more ∧ more ≤ rest.length := by
  rw [head, if_neg high] at h
  split at h
  · cases h
  · split at h
    · cases h
    · next k rest =>
      split at h
      · have on := followed_length h
        rw [List.length_cons]
        omega
      · cases h

/-- no byte gives two characters -/
theorem length_lossyFrom_le (skip : Nat) (bs : Bytes) :
    (lossyFrom skip bs).length ≤ bs.length - skip := by
  induction bs generalizing skip with
  | nil => cases skip <;> exact Nat.zero_le _
  | cons b rest ih =>
    cases skip with
    | succ skip =>
      have on := ih skip
      rw [lossyFrom, List.length_cons]
      omega
    | zero =>
      rw [lossyFrom]
      split
      · next more _ =>
        have on := ih more
        rw [List.length_cons, List.length_cons]
        omega
      · next more _ =>
        have on := ih more
        rw [List.length_cons, List.length_cons]
        omega
      · simp

end Utf8

namespace Encoding
open Utf8

variable {c : Char} {cs : List Char}

/-! ## one byte per character -/

theorem latin1Char_latin1Byte_iff : latin1Char (latin1Byte c) = c ↔ c.toNat < 0x100 := by
  rw [latin1Byte]
  split
  · next small =>
    have back : latin1Char (UInt8.ofNat c.toNat) = c := by
      rw [latin1Char, toNat_ofNat small, Char.ofNat_toNat]
    exact iff_of_true back small
  · next large =>
    refine iff_of_false ?_ large
    rintro e
    rw [← e] at large
    exact large (by decide)

/-- in ASCII both encodings write the same byte -/
theorem encodeChars_of_ascii (h : ∀ c ∈ cs, c.toNat < 0x80) : encodeChars cs = cs.map latin1Byte := by
  induction cs with
  | nil => rfl
  | cons c cs ih =>
    have first : c.toNat < 0x80 := h c List.mem_cons_self
    rw [encodeChars_cons, encodeChar_one first, ih fun d mem => h d (List.mem_cons_of_mem c mem),
      List.map_cons, latin1Byte, if_pos (by omega)]
    rfl

/-- a byte above 0x7F is no character alone: together with others it gives fewer characters than
there are bytes, and alone it gives the replacement character, which is written as a question
mark -/
theorem ascii_of_lossyFrom (h : lossyFrom 0 (cs.map latin1Byte) = cs) : ∀ c ∈ cs, c.toNat < 0x80 := by
  induction cs with
  | nil => nofun
  | cons c cs ih =>
    rw [List.map_cons, lossyFrom] at h
    by_cases unknown : c = replacement
    · subst unknown
      have read : '?' = replacement := (List.cons.inj h).1
      exact absurd read (by decide)
    split at h
    · next c' more front =>
      obtain ⟨e, onward⟩ := List.cons.inj h
      subst e
      by_cases high : latin1Byte c' < 0x80
      · rw [head, if_pos high] at front
        obtain ⟨e, rfl⟩ := Head.char.inj front
        have first : c'.toNat < 0x80 := by
          have value := UInt8.lt_iff_toNat_lt.mp high
          rw [← e, toNat_charOfNat (.inl (Nat.lt_trans value (by decide)))]
          exact value
        intro d mem
        obtain rfl | mem := List.mem_cons.mp mem
        · exact first
        · exact ih onward d mem
      · have taken := head_length high front
        have few := length_lossyFrom_le more (cs.map latin1Byte)
        rw [onward] at few
        rw [List.length_map] at few taken
        omega
    · exact absurd (List.cons.inj h).1.symm unknown
    · exact absurd (List.cons.inj h).1.symm unknown

/-! ## any two encodings -/

/-- the characters below it survive being written under one encoding and read under the other -/
def limit (writer reader : Encoding) : Nat :=
  match writer, reader with
  | .utf8, .utf8 => 0x110000
  | .latin1, .latin1 => 0x100
  | .utf8, .latin1 | .latin1, .utf8 => 0x80

theorem ascii_le_limit (writer reader : Encoding) : 0x80 ≤ limit writer reader := by
  cases writer <;> cases reader <;> decide

/-- **A text written under one encoding comes back under another if and only if all of its
characters are below the limit of the two.** -/
theorem decode_encode_iff (writer reader : Encoding) (text : String) :
    reader.decode (writer.encode text) = text ↔ ∀ c ∈ text.toList, c.toNat < limit writer reader := by
  cases writer with
  | utf8 =>
    cases reader with
    | utf8 =>
      refine iff_of_true (lossy_encode text) fun c _ => ?_
      have range := valid c
      show c.toNat < 0x110000
      omega
    | latin1 =>
      show String.ofList ((encodeChars text.toList).map latin1Char) = text ↔ _
      rw [String.ofList_eq]
      constructor
      · intro back
        have even := congrArg List.length back
        rw [List.length_map] at even
        exact ascii_of_length even
      · intro ascii
        rw [encodeChars_of_ascii ascii, List.map_map]
        refine (List.map_inj_left.mpr fun c mem => ?_).trans text.toList.map_id
        exact latin1Char_latin1Byte_iff.mpr (Nat.lt_trans (ascii c mem) (by decide))
  | latin1 =>
    cases reader with
    | utf8 =>
      show String.ofList (lossyFrom 0 (text.toList.map latin1Byte)) = text ↔ _
      rw [String.ofList_eq]
      refine ⟨ascii_of_lossyFrom, fun ascii => ?_⟩
      rw [← encodeChars_of_ascii ascii, lossyFrom_encodeChars]
    | latin1 =>
      show String.ofList ((text.toList.map latin1Byte).map latin1Char) = text ↔ _
      have all := List.map_inj_left (l := text.toList) (f := latin1Char ∘ latin1Byte) (g := id)
      rw [String.ofList_eq, List.map_map]
      rw [text.toList.map_id] at all
      exact all.trans (forall₂_congr fun _ _ => latin1Char_latin1Byte_iff)

end Encoding

/-! ## numbers -/

namespace Numeral

theorem ascii_of_isDigit {c : Char} (h : c.isDigit) : c.toNat < 0x80 := by
  have digit : c.val ≥ '0'.val ∧ c.val ≤ '9'.val := by
    simpa [Char.isDigit] using h
  exact Nat.lt_of_le_of_lt (UInt32.le_iff_toNat_le.mp digit.2) (by decide)

theorem ascii_ofInt (n : Int) : ∀ c ∈ (ofInt n).toList, c.toNat < 0x80 := by
  intro c mem
  obtain rfl | digit := of_mem_ofInt mem
  · decide
  · exact ascii_of_isDigit digit

end Numeral

namespace Decimal

/-- digits and at most a point -/
theorem ascii_positional (d : Decimal) : ∀ c ∈ d.positional, c.toNat < 0x80 := by
  have digits : ∀ c ∈ Nat.toDigits 10 d.digits, c.toNat < 0x80 := fun c mem =>
    Numeral.ascii_of_isDigit (Nat.isDigit_of_mem_toDigits (by omega) (by omega) mem)
  have zeros : ∀ (n : Nat), ∀ c ∈ List.replicate n '0', c.toNat < 0x80 := by
    intro n c mem
    rw [List.eq_of_mem_replicate mem]
    decide
  intro c mem
  rw [positional] at mem
  split at mem
  · obtain mem | mem := List.mem_append.mp mem
    · exact digits c mem
    · exact zeros _ c mem
  dsimp only at mem
  split at mem
  · simp only [List.cons_append, List.nil_append, List.mem_cons, List.mem_append] at mem
    obtain rfl | rfl | mem | mem := mem
    · decide
    · decide
    · exact zeros _ c mem
    · exact digits c mem
  · simp only [List.append_assoc, List.cons_append, List.nil_append, List.mem_cons,
      List.mem_append] at mem
    obtain mem | rfl | mem := mem
    · exact digits c (List.mem_of_mem_take mem)
    · decide
    · exact digits c (List.mem_of_mem_drop mem)

end Decimal

namespace Binary64

theorem ascii_unsignedText (x : Binary64) : ∀ c ∈ x.unsignedText, c.toNat < 0x80 := by
  rw [unsignedText]
  split
  · exact ascii_of_all (by decide)
  split
  · exact ascii_of_all (by decide)
  · exact Decimal.ascii_positional _

theorem ascii_text (x : Binary64) : ∀ c ∈ x.text.toList, c.toNat < 0x80 := by
  rw [text]
  split
  · exact ascii_of_all (by decide)
  · intro c mem
    rw [String.toList_ofList] at mem
    obtain mem | mem := List.mem_append.mp mem
    · split at mem
      · rw [List.mem_singleton.mp mem]
        decide
      · cases mem
    · exact ascii_unsignedText x c mem

end Binary64

/-! ## arguments -/

namespace Arg

/-- written under one encoding, it reads under the other as the text it stands for -/
def Legible (writer reader : Encoding) : Arg → Prop
  | text s => ∀ c ∈ s.toList, c.toNat < writer.limit reader
  | binary _ | int _ | float _ => True

instance (writer reader : Encoding) : DecidablePred (Legible writer reader)
  | text s => List.decidableBAll (fun c : Char => c.toNat < writer.limit reader) s.toList
  | binary _ | int _ | float _ => inferInstanceAs (Decidable True)

/-- what is ASCII reads as itself under any encoding -/
theorem decode_of_ascii (reader : Encoding) {s : String} (h : ∀ c ∈ s.toList, c.toNat < 0x80) :
    reader.decode (Utf8.encode s) = s :=
  (Encoding.decode_encode_iff .utf8 reader s).mpr fun c mem =>
    Nat.lt_of_lt_of_le (h c mem) (Encoding.ascii_le_limit .utf8 reader)

/-- **The bytes of an argument read as its text if and only if it is legible.** -/
theorem decode_toBytes_iff (writer reader : Encoding) (arg : Arg) :
    reader.decode (arg.toBytes writer) = arg.toText reader ↔ arg.Legible writer reader := by
  cases arg with
  | text s => exact Encoding.decode_encode_iff writer reader s
  | binary bs => exact iff_of_true rfl trivial
  | int n => exact iff_of_true (decode_of_ascii reader (Numeral.ascii_ofInt n.toInt)) trivial
  | float x => exact iff_of_true (decode_of_ascii reader x.ascii_text) trivial

end Arg
end RespLink
