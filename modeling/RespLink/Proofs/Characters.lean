import RespLink.Text.Utf8

/-!
# Characters read back

A text reads back from its bytes, strictly and lossily, and no reading makes or breaks the end of a
line: the two bytes of one are below 0x80, and below 0x80 a byte is a character.

* `head_encodeChar`   the front of the bytes of a character is that character;
* `lossy_encode`, `decode?_encode`   the text of the bytes of a text;
* `crlf_of_encode`    two bytes that end a line come from two characters;
* `crlf_of_lossy`     two characters that would end a line come from two bytes.
-/

namespace RespLink.Utf8

/-! ## the bytes of a character -/

theorem lead_two {n : Nat} (low : 2 ≤ n) (high : n < 32) :
    lead (UInt8.ofNat (n + 0xC0)) = some ⟨1, n, 0x80, 0xBF⟩ := by
  have each : ∀ n : Fin 32, 2 ≤ n.val →
      lead (UInt8.ofNat (n.val + 0xC0)) = some ⟨1, n.val, 0x80, 0xBF⟩ := by decide
  exact each ⟨n, high⟩ low

theorem lead_three {n : Nat} (high : n < 16) :
    lead (UInt8.ofNat (n + 0xE0)) =
      some ⟨2, n, if n = 0 then 0xA0 else 0x80, if n = 0xD then 0x9F else 0xBF⟩ := by
  have each : ∀ n : Fin 16, lead (UInt8.ofNat (n.val + 0xE0)) =
      some ⟨2, n.val, if n.val = 0 then 0xA0 else 0x80, if n.val = 0xD then 0x9F else 0xBF⟩ := by
    decide
  exact each ⟨n, high⟩

theorem lead_four {n : Nat} (high : n < 5) :
    lead (UInt8.ofNat (n + 0xF0)) =
      some ⟨3, n, if n = 0 then 0x90 else 0x80, if n = 4 then 0x8F else 0xBF⟩ := by
  have each : ∀ n : Fin 5, lead (UInt8.ofNat (n.val + 0xF0)) =
      some ⟨3, n.val, if n.val = 0 then 0x90 else 0x80, if n.val = 4 then 0x8F else 0xBF⟩ := by
    decide
  exact each ⟨n, high⟩

theorem toNat_ofNat {n : Nat} (small : n < 256) : (UInt8.ofNat n).toNat = n :=
  UInt8.toNat_ofNat_of_lt' small

theorem toNat_charOfNat {n : Nat} (valid : n.isValidChar) : (Char.ofNat n).toNat = n := by
  rw [Char.ofNat, dif_pos valid]
  rfl

/-- a number that is no character is read as the first of all -/
theorem toNat_charOfNat_cases (n : Nat) : (Char.ofNat n).toNat = n ∨ (Char.ofNat n).toNat = 0 := by
  by_cases valid : n.isValidChar
  · exact .inl (toNat_charOfNat valid)
  · right
    rw [Char.ofNat, dif_neg valid]
    rfl

/-- a further byte adds six bits -/
theorem followed_succ {n bits more k : Nat} (six : k < 64) (rest : Bytes) :
    followed (n + 1) bits more (UInt8.ofNat (k + 0x80) :: rest) =
      followed n (bits * 64 + k) (more + 1) rest := by
  have value : (UInt8.ofNat (k + 0x80)).toNat = k + 0x80 := toNat_ofNat (by omega)
  have range : 0x80 ≤ UInt8.ofNat (k + 0x80) ∧ UInt8.ofNat (k + 0x80) ≤ 0xBF := by
    rw [UInt8.le_iff_toNat_le, UInt8.le_iff_toNat_le, value]
    constructor
    · show 128 ≤ k + 0x80
      omega
    · show k + 0x80 ≤ 191
      omega
  rw [followed, if_pos range, value, Nat.add_sub_cancel]

/-- the second byte of a sequence, in the range that the first one sets -/
theorem head_of_lead {b : UInt8} {l : Lead} (high : 0x80 ≤ b) (h : lead b = some l) {k : Nat}
    (six : k < 64) (low : l.low.toNat ≤ k + 0x80) (top : k + 0x80 ≤ l.high.toNat) (rest : Bytes) :
    head b (UInt8.ofNat (k + 0x80) :: rest) = followed (l.follow - 1) (l.bits * 64 + k) 1 rest := by
  have value : (UInt8.ofNat (k + 0x80)).toNat = k + 0x80 := toNat_ofNat (by omega)
  have range : l.low ≤ UInt8.ofNat (k + 0x80) ∧ UInt8.ofNat (k + 0x80) ≤ l.high := by
    rw [UInt8.le_iff_toNat_le, UInt8.le_iff_toNat_le, value]
    exact ⟨low, top⟩
  rw [head, if_neg (UInt8.not_lt.mpr high), h]
  dsimp only
  rw [if_pos range, value, Nat.add_sub_cancel]

theorem high_ofNat {n : Nat} (high : 0x80 ≤ n) (small : n < 256) : 0x80 ≤ UInt8.ofNat n := by
  rw [UInt8.le_iff_toNat_le, toNat_ofNat small]
  exact high

theorem valid (c : Char) : c.toNat < 0xD800 ∨ 0xDFFF < c.toNat ∧ c.toNat < 0x110000 := c.valid

section
variable {c : Char}

theorem encodeChar_one (high : c.toNat < 0x80) :
    String.utf8EncodeChar c = [UInt8.ofNat c.toNat] :=
  if_pos (Nat.le_of_lt_succ high)

theorem encodeChar_two (low : 0x80 ≤ c.toNat) (high : c.toNat < 0x800) :
    String.utf8EncodeChar c =
      [UInt8.ofNat (c.toNat / 64 + 0xC0), UInt8.ofNat (c.toNat % 64 + 0x80)] := by
  have first : c.toNat / 64 % 32 = c.toNat / 64 := Nat.mod_eq_of_lt (by omega)
  have bytes : String.utf8EncodeChar c =
      [UInt8.ofNat (c.toNat / 64 % 32 + 0xC0), UInt8.ofNat (c.toNat % 64 + 0x80)] :=
    (if_neg (Nat.not_le_of_lt low)).trans (if_pos (Nat.le_of_lt_succ high))
  rw [bytes, first]

theorem encodeChar_three (low : 0x800 ≤ c.toNat) (high : c.toNat < 0x10000) :
    String.utf8EncodeChar c =
      [UInt8.ofNat (c.toNat / 4096 + 0xE0), UInt8.ofNat (c.toNat / 64 % 64 + 0x80),
        UInt8.ofNat (c.toNat % 64 + 0x80)] := by
  have first : c.toNat / 4096 % 16 = c.toNat / 4096 := Nat.mod_eq_of_lt (by omega)
  have bytes : String.utf8EncodeChar c =
      [UInt8.ofNat (c.toNat / 4096 % 16 + 0xE0), UInt8.ofNat (c.toNat / 64 % 64 + 0x80),
        UInt8.ofNat (c.toNat % 64 + 0x80)] :=
    (if_neg (show ¬ c.toNat ≤ 0x7F by omega)).trans
      ((if_neg (Nat.not_le_of_lt low)).trans (if_pos (Nat.le_of_lt_succ high)))
  rw [bytes, first]

theorem encodeChar_four (low : 0x10000 ≤ c.toNat) :
    String.utf8EncodeChar c =
      [UInt8.ofNat (c.toNat / 262144 + 0xF0), UInt8.ofNat (c.toNat / 4096 % 64 + 0x80),
        UInt8.ofNat (c.toNat / 64 % 64 + 0x80), UInt8.ofNat (c.toNat % 64 + 0x80)] := by
  have range := valid c
  have first : c.toNat / 262144 % 8 = c.toNat / 262144 := Nat.mod_eq_of_lt (by omega)
  have bytes : String.utf8EncodeChar c =
      [UInt8.ofNat (c.toNat / 262144 % 8 + 0xF0), UInt8.ofNat (c.toNat / 4096 % 64 + 0x80),
        UInt8.ofNat (c.toNat / 64 % 64 + 0x80), UInt8.ofNat (c.toNat % 64 + 0x80)] :=
    (if_neg (show ¬ c.toNat ≤ 0x7F by omega)).trans
      ((if_neg (show ¬ c.toNat ≤ 0x7FF by omega)).trans (if_neg (Nat.not_le_of_lt low)))
  rw [bytes, first]

/-- a character above 0x7F has no byte below 0x80 -/
theorem le_of_mem_encodeChar (wide : 0x80 ≤ c.toNat) {b : UInt8}
    (h : b ∈ String.utf8EncodeChar c) : 0x80 ≤ b := by
  have range := valid c
  by_cases two : c.toNat < 0x800
  · rw [encodeChar_two wide two] at h
    simp only [List.mem_cons, List.not_mem_nil, or_false] at h
    obtain rfl | rfl := h <;> exact high_ofNat (by omega) (by omega)
  by_cases three : c.toNat < 0x10000
  · rw [encodeChar_three (Nat.not_lt.mp two) three] at h
    simp only [List.mem_cons, List.not_mem_nil, or_false] at h
    obtain rfl | rfl | rfl := h <;> exact high_ofNat (by omega) (by omega)
  · rw [encodeChar_four (Nat.not_lt.mp three)] at h
    simp only [List.mem_cons, List.not_mem_nil, or_false] at h
    obtain rfl | rfl | rfl | rfl := h <;> exact high_ofNat (by omega) (by omega)

/-! ## the front of a text -/

theorem head_one (high : c.toNat < 0x80) (rest : Bytes) :
    head (UInt8.ofNat c.toNat) rest = .char c 0 := by
  have value : (UInt8.ofNat c.toNat).toNat = c.toNat := toNat_ofNat (by omega)
  have ascii : UInt8.ofNat c.toNat < 0x80 := by
    rw [UInt8.lt_iff_toNat_lt, value]
    exact high
  rw [head, if_pos ascii, value, Char.ofNat_toNat]

theorem head_two (low : 0x80 ≤ c.toNat) (high : c.toNat < 0x800) (rest : Bytes) :
    head (UInt8.ofNat (c.toNat / 64 + 0xC0)) (UInt8.ofNat (c.toNat % 64 + 0x80) :: rest) =
      .char c 1 := by
  have first : lead (UInt8.ofNat (c.toNat / 64 + 0xC0)) = _ := lead_two (by omega) (by omega)
  have bits : c.toNat / 64 * 64 + c.toNat % 64 = c.toNat := by omega
  rw [head_of_lead (high_ofNat (by omega) (by omega)) first (Nat.mod_lt _ (by omega))]
  · show followed 0 (c.toNat / 64 * 64 + c.toNat % 64) 1 rest = _
    rw [bits, followed, Char.ofNat_toNat]
  · show 128 ≤ _
    omega
  · show _ ≤ 191
    omega

theorem head_three (low : 0x800 ≤ c.toNat) (high : c.toNat < 0x10000) (rest : Bytes) :
    head (UInt8.ofNat (c.toNat / 4096 + 0xE0)) (UInt8.ofNat (c.toNat / 64 % 64 + 0x80) ::
      UInt8.ofNat (c.toNat % 64 + 0x80) :: rest) = .char c 2 := by
  have range := valid c
  have first : lead (UInt8.ofNat (c.toNat / 4096 + 0xE0)) = _ := lead_three (by omega)
  have bits : (c.toNat / 4096 * 64 + c.toNat / 64 % 64) * 64 + c.toNat % 64 = c.toNat := by omega
  rw [head_of_lead (high_ofNat (by omega) (by omega)) first (Nat.mod_lt _ (by omega))]
  · show followed 1 (c.toNat / 4096 * 64 + c.toNat / 64 % 64) 1 _ = _
    rw [followed_succ (Nat.mod_lt _ (by omega)), bits, followed, Char.ofNat_toNat]
  · -- nothing that fits into two bytes
    dsimp only
    split
    · show 160 ≤ _
      omega
    · show 128 ≤ _
      omega
  · -- no surrogate
    dsimp only
    split
    · show _ ≤ 159
      omega
    · show _ ≤ 191
      omega

theorem head_four (low : 0x10000 ≤ c.toNat) (rest : Bytes) :
    head (UInt8.ofNat (c.toNat / 262144 + 0xF0)) (UInt8.ofNat (c.toNat / 4096 % 64 + 0x80) ::
      UInt8.ofNat (c.toNat / 64 % 64 + 0x80) :: UInt8.ofNat (c.toNat % 64 + 0x80) :: rest) =
      .char c 3 := by
  have range := valid c
  have first : lead (UInt8.ofNat (c.toNat / 262144 + 0xF0)) = _ := lead_four (by omega)
  have bits : ((c.toNat / 262144 * 64 + c.toNat / 4096 % 64) * 64 + c.toNat / 64 % 64) * 64
      + c.toNat % 64 = c.toNat := by omega
  rw [head_of_lead (high_ofNat (by omega) (by omega)) first (Nat.mod_lt _ (by omega))]
  · show followed 2 (c.toNat / 262144 * 64 + c.toNat / 4096 % 64) 1 _ = _
    rw [followed_succ (Nat.mod_lt _ (by omega)), followed_succ (Nat.mod_lt _ (by omega)), bits,
      followed, Char.ofNat_toNat]
  · -- nothing that fits into three bytes
    dsimp only
    split
    · show 144 ≤ _
      omega
    · show 128 ≤ _
      omega
  · -- nothing above the last character
    dsimp only
    split
    · show _ ≤ 143
      omega
    · show _ ≤ 191
      omega

end

/-- whatever follows them, the bytes of a character are read as that character -/
theorem head_encodeChar (c : Char) :
    ∃ b tail, String.utf8EncodeChar c = b :: tail ∧
      ∀ rest, head b (tail ++ rest) = .char c tail.length := by
  by_cases one : c.toNat < 0x80
  · exact ⟨_, _, encodeChar_one one, head_one one⟩
  by_cases two : c.toNat < 0x800
  · exact ⟨_, _, encodeChar_two (Nat.not_lt.mp one) two, head_two (Nat.not_lt.mp one) two⟩
  by_cases three : c.toNat < 0x10000
  · exact ⟨_, _, encodeChar_three (Nat.not_lt.mp two) three, head_three (Nat.not_lt.mp two) three⟩
  · exact ⟨_, _, encodeChar_four (Nat.not_lt.mp three), head_four (Nat.not_lt.mp three)⟩

/-! ## reading a text -/

theorem encodeChars_cons (c : Char) (cs : List Char) :
    encodeChars (c :: cs) = String.utf8EncodeChar c ++ encodeChars cs := List.flatMap_cons

theorem lossyFrom_skip (skip : Nat) (bs : Bytes) :
    lossyFrom skip bs = lossyFrom 0 (bs.drop skip) := by
  induction bs generalizing skip with
  | nil => cases skip <;> rfl
  | cons b rest ih =>
    cases skip with
    | zero => rfl
    | succ skip => exact ih skip

theorem lossyFrom_encodeChars (cs : List Char) : lossyFrom 0 (encodeChars cs) = cs := by
  induction cs with
  | nil => rfl
  | cons c cs ih =>
    obtain ⟨b, tail, bytes, front⟩ := head_encodeChar c
    rw [encodeChars_cons, bytes, List.cons_append, lossyFrom, front]
    dsimp only
    rw [lossyFrom_skip, List.drop_left, ih]

theorem lossy_encode (text : String) : lossy (encode text) = text := by
  rw [lossy, encode, lossyFrom_encodeChars, String.ofList_toList]

theorem decodeFrom_skip (pos : Nat) (front rest : Bytes) :
    decodeFrom pos front.length (front ++ rest) = decodeFrom (pos + front.length) 0 rest := by
  induction front generalizing pos with
  | nil => rfl
  | cons b front ih =>
    rw [List.length_cons, List.cons_append, decodeFrom, ih]
    congr 1
    omega

theorem decodeFrom_encodeChars (pos : Nat) (cs : List Char) :
    decodeFrom pos 0 (encodeChars cs) = .ok cs := by
  induction cs generalizing pos with
  | nil => rfl
  | cons c cs ih =>
    obtain ⟨b, tail, bytes, front⟩ := head_encodeChar c
    rw [encodeChars_cons, bytes, List.cons_append, decodeFrom, front]
    dsimp only
    rw [decodeFrom_skip, ih]
    rfl

theorem decode?_encode (text : String) : decode? (encode text) = .ok text := by
  rw [decode?, encode, decodeFrom_encodeChars]
  show Except.ok (String.ofList text.toList) = _
  rw [String.ofList_toList]

/-! ## ends of lines -/

/-- the two characters that end a line -/
def lineEnd : List Char := ['\r', '\n']

/-- bytes above 0x7F are no part of the end of a line -/
theorem crlf_of_high {front rest : Bytes} (high : ∀ b ∈ front, 0x80 ≤ b)
    (h : Bytes.crlf <:+: front ++ rest) : Bytes.crlf <:+: rest := by
  induction front with
  | nil => exact h
  | cons b front ih =>
    have inside : ∀ b ∈ front, 0x80 ≤ b := fun b mem => high b (List.mem_cons_of_mem _ mem)
    rw [List.cons_append, List.infix_cons_iff] at h
    obtain first | behind := h
    · obtain ⟨tail, all⟩ := first
      rw [Bytes.crlf, List.cons_append, List.cons.injEq] at all
      have low : 0x80 ≤ Bytes.cr := all.1 ▸ high b List.mem_cons_self
      exact absurd low (by decide)
    · exact ih inside behind

/-- a byte below 0x80 in front of a text is its first character -/
theorem encodeChars_eq_cons {cs : List Char} {b : UInt8} {rest : Bytes} (ascii : b < 0x80)
    (h : encodeChars cs = b :: rest) : ∃ cs', cs = Char.ofNat b.toNat :: cs' := by
  cases cs with
  | nil => cases h
  | cons c cs =>
    rw [encodeChars_cons] at h
    by_cases one : c.toNat < 0x80
    · rw [encodeChar_one one] at h
      cases h
      refine ⟨cs, ?_⟩
      rw [toNat_ofNat (by omega), Char.ofNat_toNat]
    · obtain ⟨first, tail, bytes, _⟩ := head_encodeChar c
      have mem : b ∈ String.utf8EncodeChar c := by
        rw [bytes] at h ⊢
        cases h
        exact List.mem_cons_self
      exact absurd ascii (UInt8.not_lt.mpr (le_of_mem_encodeChar (Nat.not_lt.mp one) mem))

theorem crlf_of_encodeChars {cs : List Char} (h : Bytes.crlf <:+: encodeChars cs) :
    lineEnd <:+: cs := by
  induction cs with
  | nil =>
    obtain ⟨before, behind, all⟩ := h
    simp [Bytes.crlf, encodeChars] at all
  | cons c cs ih =>
    rw [List.infix_cons_iff]
    rw [encodeChars_cons] at h
    by_cases one : c.toNat < 0x80
    · rw [encodeChar_one one, List.singleton_append, List.infix_cons_iff] at h
      obtain first | behind := h
      · left
        obtain ⟨tail, all⟩ := first
        rw [Bytes.crlf, List.cons_append, List.cons.injEq] at all
        obtain ⟨cr, lf⟩ := all
        obtain ⟨cs', rfl⟩ := encodeChars_eq_cons (by decide) lf.symm
        have first : c = '\r' := by
          rw [← Char.ofNat_toNat c, ← toNat_ofNat (n := c.toNat) (by omega), ← cr]
          rfl
        rw [first]
        exact ⟨cs', rfl⟩
      · exact .inr (ih behind)
    · have high : ∀ b ∈ String.utf8EncodeChar c, 0x80 ≤ b :=
        fun b mem => le_of_mem_encodeChar (Nat.not_lt.mp one) mem
      exact .inr (ih (crlf_of_high high h))

/-- the bytes of a text in one line have no end of a line inside -/
theorem crlf_of_encode {text : String} (h : Bytes.crlf <:+: encode text) :
    lineEnd <:+: text.toList :=
  crlf_of_encodeChars h

/-! ## what invalid bytes read as -/

theorem ofNat_ne {v : Nat} (wide : 0x80 ≤ v) {c : Char} (h : c ∈ lineEnd) : Char.ofNat v ≠ c := by
  have value := toNat_charOfNat_cases v
  have low : c.toNat = 13 ∨ c.toNat = 10 := by
    simp only [lineEnd, List.mem_cons, List.not_mem_nil, or_false] at h
    obtain rfl | rfl := h
    · exact .inl rfl
    · exact .inr rfl
  rintro rfl
  omega

/-- the first two bytes of a sequence hold enough for a character above 0x7F -/
theorem lead_bits {b : UInt8} {l : Lead} (h : lead b = some l) :
    l.follow = 1 ∧ 2 ≤ l.bits ∨ 2 ≤ l.follow ∧ (1 ≤ l.bits ∨ 0x90 ≤ l.low) := by
  unfold lead at h
  split at h
  · cases h
  next two =>
  rw [UInt8.lt_iff_toNat_lt, show (0xC2 : UInt8).toNat = 0xC2 from rfl] at two
  split at h
  · cases h
    left
    dsimp only
    omega
  next three =>
  rw [UInt8.le_iff_toNat_le, show (0xDF : UInt8).toNat = 0xDF from rfl] at three
  right
  split at h
  · cases h
    decide
  next first =>
  rw [← UInt8.toNat_inj, show (0xE0 : UInt8).toNat = 0xE0 from rfl] at first
  split at h
  · cases h
    decide
  split at h
  · cases h
    dsimp only
    omega
  next four =>
  rw [UInt8.le_iff_toNat_le, show (0xEF : UInt8).toNat = 0xEF from rfl] at four
  split at h
  · cases h
    decide
  next first =>
  rw [← UInt8.toNat_inj, show (0xF0 : UInt8).toNat = 0xF0 from rfl] at first
  split at h
  · cases h
    dsimp only
    omega
  split at h
  · cases h
    decide
  · cases h

theorem followed_char {n bits more read : Nat} {rest : Bytes} {c : Char}
    (h : followed n bits more rest = .char c read) :
    ∃ v, c = Char.ofNat v ∧ bits ≤ v ∧ (0 < n → bits * 64 ≤ v) := by
  induction n generalizing bits more rest with
  | zero =>
    rw [followed] at h
    cases h
    exact ⟨bits, rfl, Nat.le_refl _, nofun⟩
  | succ n ih =>
    cases rest with
    | nil => cases h
    | cons b rest =>
      rw [followed] at h
      split at h
      · obtain ⟨v, rfl, above, _⟩ := ih h
        exact ⟨v, rfl, by omega, fun _ => by omega⟩
      · cases h

/-- a character that ends a line is read off one byte -/
theorem head_char {b : UInt8} {rest : Bytes} {c : Char} {more : Nat}
    (h : head b rest = .char c more) (end' : c ∈ lineEnd) : c = Char.ofNat b.toNat ∧ more = 0 := by
  unfold head at h
  split at h
  · cases h
    exact ⟨rfl, rfl⟩
  · split at h
    · cases h
    · next l lead =>
      split at h
      · cases h
      · next k rest =>
        split at h
        · next range =>
          obtain ⟨v, rfl, above, longer⟩ := followed_char h
          have low : l.low.toNat ≤ k.toNat := UInt8.le_iff_toNat_le.mp range.1
          refine absurd rfl (ofNat_ne ?_ end')
          obtain ⟨two, bits⟩ | ⟨more, bits⟩ := lead_bits lead
          · omega
          · have further := longer (by omega)
            obtain bits | low' := bits
            · omega
            · have least : 0x90 ≤ l.low.toNat := UInt8.le_iff_toNat_le.mp low'
              omega
        · cases h

/-- a character that ends a line stands for its one byte, and reading goes on behind it -/
theorem lossyFrom_eq_cons {bs : Bytes} {c : Char} {cs : List Char} (h : lossyFrom 0 bs = c :: cs)
    (end' : c ∈ lineEnd) : ∃ rest, bs = UInt8.ofNat c.toNat :: rest ∧ cs = lossyFrom 0 rest := by
  cases bs with
  | nil => cases h
  | cons b rest =>
    rw [lossyFrom] at h
    split at h
    · next c' more front =>
      cases h
      obtain ⟨rfl, rfl⟩ := head_char front end'
      refine ⟨rest, ?_, rfl⟩
      have small : b.toNat < 0xD800 := Nat.lt_trans b.toNat_lt (by decide)
      have value : (Char.ofNat b.toNat).toNat = b.toNat := toNat_charOfNat (.inl small)
      rw [value, UInt8.ofNat_toNat]
    · cases h
      exact absurd end' (by decide)
    · cases h
      exact absurd end' (by decide)

theorem lossyFrom_tail {b : UInt8} {rest : Bytes} {c : Char} {cs : List Char}
    (h : lossyFrom 0 (b :: rest) = c :: cs) : cs = [] ∨ ∃ more, cs = lossyFrom 0 (rest.drop more) := by
  rw [lossyFrom] at h
  split at h
  · next more _ =>
    cases h
    exact .inr ⟨more, lossyFrom_skip more rest⟩
  · next more _ =>
    cases h
    exact .inr ⟨more, lossyFrom_skip more rest⟩
  · cases h
    exact .inl rfl

theorem crlf_of_lossyFrom {bs : Bytes} (h : lineEnd <:+: lossyFrom 0 bs) : Bytes.crlf <:+: bs := by
  obtain ⟨before, behind, all⟩ := h
  induction before generalizing bs with
  | nil =>
    obtain ⟨rest, rfl, onward⟩ := lossyFrom_eq_cons all.symm (by decide)
    obtain ⟨rest, rfl, _⟩ := lossyFrom_eq_cons onward.symm (by decide)
    exact ⟨[], rest, rfl⟩
  | cons c before ih =>
    cases bs with
    | nil => cases all
    | cons b rest =>
      obtain none | ⟨more, onward⟩ := lossyFrom_tail all.symm
      · exact absurd none (by simp [lineEnd])
      · have later := ih onward
        exact (later.trans (List.drop_suffix more rest).isInfix).trans (List.suffix_cons b rest).isInfix

/-- no end of a line comes out of bytes that hold none, valid or not -/
theorem crlf_of_lossy {bs : Bytes} (h : lineEnd <:+: (lossy bs).toList) : Bytes.crlf <:+: bs := by
  rw [lossy, String.toList_ofList] at h
  exact crlf_of_lossyFrom h

end RespLink.Utf8
