import RespLink.Number.Numeral

/-!
# Numerals read back

Digits are written from the highest to the lowest, and read in this order onto what was read before.

* `readDigits_append`, `readDigits_toDigits`   digit by digit, the number comes back;
* `readInt_ofInt`   with its sign, down to the least number in range;
* `int64_ofInt`   at the width of the wire;
* `Denotes`   the number that a numeral without a minus sign stands for, whatever zeros lead it;
* `readNat_eq_ok_iff`, `uint16_eq_ok_iff`, `uint32_eq_ok_iff`   exactly the numerals in range are read.
-/

namespace RespLink.Numeral

/-! ## digits -/

theorem digit?_digitChar {d : Nat} (small : d < 10) : digit? d.digitChar = some d := by
  have each : ∀ d : Fin 10, digit? d.val.digitChar = some d.val := by decide
  exact each ⟨d, small⟩

section
variable {limit : Nat} {above : Fault}

theorem readDigits_append {acc mid : Nat} {front : List Char}
    (h : readDigits limit above acc front = .ok mid) (back : List Char) :
    readDigits limit above acc (front ++ back) = readDigits limit above mid back := by
  induction front generalizing acc with
  | nil =>
    cases h
    rfl
  | cons c front ih =>
    rw [readDigits] at h
    rw [List.cons_append, readDigits]
    split at h
    · cases h
    · split at h
      · cases h
      · next fits =>
        rw [if_neg fits]
        exact ih h

theorem readDigits_digit (acc : Nat) {d : Nat} (small : d < 10) (fits : acc * 10 + d ≤ limit) :
    readDigits limit above acc [d.digitChar] = .ok (acc * 10 + d) := by
  rw [readDigits, digit?_digitChar small]
  dsimp only
  rw [if_neg (by omega), readDigits]

theorem readDigits_toDigits {n : Nat} (fits : n ≤ limit) :
    readDigits limit above 0 (Nat.toDigits 10 n) = .ok n := by
  induction n using Nat.strongRecOn with
  | ind n ih =>
    rw [Nat.toDigits_eq_if (by omega)]
    split
    · next small =>
      rw [readDigits_digit 0 small (by omega)]
      congr 1
      omega
    · next large =>
      have front := ih (n / 10) (by omega) (by omega)
      have back : n / 10 * 10 + n % 10 = n := by omega
      rw [readDigits_append front, readDigits_digit (n / 10) (Nat.mod_lt _ (by omega)) (by omega),
        back]

end

/-! ## signs -/

theorem toDigits_cons (n : Nat) :
    ∃ c rest, Nat.toDigits 10 n = c :: rest ∧ c.isDigit := by
  cases digits : Nat.toDigits 10 n with
  | nil => exact absurd digits Nat.toDigits_ne_nil
  | cons c rest =>
    refine ⟨c, rest, rfl, Nat.isDigit_of_mem_toDigits (b := 10) (n := n) (by omega) (by omega) ?_⟩
    rw [digits]
    exact List.mem_cons_self

theorem readSigned_toDigits {limit n : Nat} {above : Fault} (fits : n ≤ limit) :
    readSigned limit above (Nat.toDigits 10 n) = .ok n := by
  have all : readDigits limit above 0 (Nat.toDigits 10 n) = .ok n := readDigits_toDigits fits
  obtain ⟨c, rest, digits, _⟩ := toDigits_cons n
  rw [digits] at all ⊢
  exact all

theorem readInt_of_isDigit {limit : Nat} {c : Char} {rest : List Char} (h : c.isDigit) :
    readInt limit (c :: rest) = (readDigits limit .tooLarge 0 (c :: rest)).map Int.ofNat := by
  unfold readInt
  split
  · next empty => cases empty
  · next minus =>
    cases minus
    cases h
  · next plus =>
    cases plus
    cases h
  · rfl

theorem readInt_toDigits {limit n : Nat} (fits : n ≤ limit) :
    readInt limit (Nat.toDigits 10 n) = .ok (n : Int) := by
  have all : readDigits limit .tooLarge 0 (Nat.toDigits 10 n) = .ok n := readDigits_toDigits fits
  obtain ⟨c, rest, digits, digit⟩ := toDigits_cons n
  rw [digits] at all ⊢
  rw [readInt_of_isDigit digit, all]
  rfl

/-- a number in range, written and read -/
theorem readInt_ofInt {limit : Nat} {n : Int} (low : -(limit : Int) - 1 ≤ n) (high : n ≤ limit) :
    readInt limit (ofInt n).toList = .ok n := by
  cases n with
  | ofNat n =>
    rw [ofInt, ofNat, String.toList_ofList]
    exact readInt_toDigits (Int.ofNat_le.mp high)
  | negSucc n =>
    rw [ofInt, String.toList_ofList, readInt, readSigned_toDigits (by omega)]
    rfl

/-! ## numbers of the wire -/

theorem int64_ofInt (n : Int64) : int64 (ofInt n.toInt) = .ok n := by
  have low : -0x8000000000000000 ≤ n.toInt := n.le_toInt
  have high : n.toInt < 0x8000000000000000 := n.toInt_lt
  rw [int64, readInt_ofInt (by omega) (by omega)]
  show Except.ok (Int64.ofInt n.toInt) = _
  rw [Int64.ofInt_toInt]

/-- a length in range -/
theorem toInt_ofNat {n : Nat} (fits : n ≤ 0x7fffffffffffffff) :
    (Int64.ofInt n).toInt = n := by
  apply Int64.toInt_ofInt_of_le
  · omega
  · omega

/-! ## the characters of a numeral -/

theorem isDigit_of_mem_ofNat {n : Nat} {c : Char} (h : c ∈ (ofNat n).toList) : c.isDigit := by
  rw [ofNat, String.toList_ofList] at h
  exact Nat.isDigit_of_mem_toDigits (by omega) (by omega) h

theorem of_mem_ofInt {n : Int} {c : Char} (h : c ∈ (ofInt n).toList) : c = '-' ∨ c.isDigit := by
  cases n with
  | ofNat n => exact .inr (isDigit_of_mem_ofNat h)
  | negSucc n =>
    rw [ofInt, String.toList_ofList, List.mem_cons] at h
    obtain rfl | h := h
    · exact .inl rfl
    · exact .inr (Nat.isDigit_of_mem_toDigits (by omega) (by omega) h)

/-! ## the number that a numeral stands for -/

/-- one digit at least, after a plus sign or without one -/
inductive Denotes : List Char → Nat → Prop
  | plain {ds : List Char} (some : ds ≠ []) (all : ∀ d ∈ ds, d.isDigit) :
    Denotes ds (Nat.ofDigitChars 10 ds 0)
  | signed {ds : List Char} (some : ds ≠ []) (all : ∀ d ∈ ds, d.isDigit) :
    Denotes ('+' :: ds) (Nat.ofDigitChars 10 ds 0)

theorem denotes_toDigits (n : Nat) : Denotes (Nat.toDigits 10 n) n := by
  have all : ∀ d ∈ Nat.toDigits 10 n, d.isDigit := fun d inside =>
    Nat.isDigit_of_mem_toDigits (by omega) (by omega) inside
  have plain := Denotes.plain Nat.toDigits_ne_nil all
  rw [Nat.ofDigitChars_toDigits (by omega) (by omega)] at plain
  exact plain

theorem denotes_ofNat (n : Nat) : Denotes (ofNat n).toList n := by
  rw [ofNat, String.toList_ofList]
  exact denotes_toDigits n

theorem digit?_of_isDigit {c : Char} (h : c.isDigit) : digit? c = some (c.toNat - '0'.toNat) := by
  obtain ⟨low, high⟩ := Char.isDigit_iff_toNat.mp h
  exact if_pos ⟨Char.le_def.mpr (UInt32.le_iff_toNat_le.mpr low),
    Char.le_def.mpr (UInt32.le_iff_toNat_le.mpr high)⟩

theorem digit?_of_not_isDigit {c : Char} (h : ¬ c.isDigit) : digit? c = none := by
  refine if_neg fun ⟨low, high⟩ => h (Char.isDigit_iff_toNat.mpr ⟨?_, ?_⟩)
  · exact UInt32.le_iff_toNat_le.mp (Char.le_def.mp low)
  · exact UInt32.le_iff_toNat_le.mp (Char.le_def.mp high)

theorem le_ofDigitChars (ds : List Char) (acc : Nat) : acc ≤ Nat.ofDigitChars 10 ds acc := by
  induction ds generalizing acc with
  | nil => exact Nat.le_of_eq Nat.ofDigitChars_nil.symm
  | cons d ds ih =>
    rw [Nat.ofDigitChars_cons]
    exact Nat.le_trans (by omega) (ih _)

/-- a number only grows as it is read, so it is in range at the end or too large on the way -/
theorem readDigits_eq_ok_iff {limit acc n : Nat} {above : Fault} {ds : List Char}
    (within : acc ≤ limit) : readDigits limit above acc ds = .ok n ↔
      (∀ d ∈ ds, d.isDigit) ∧ Nat.ofDigitChars 10 ds acc = n ∧ n ≤ limit := by
  induction ds generalizing acc with
  | nil =>
    rw [readDigits, Nat.ofDigitChars_nil, Except.ok.injEq]
    constructor
    · rintro rfl
      exact ⟨fun d inside => absurd inside List.not_mem_nil, rfl, within⟩
    · rintro ⟨_, same, _⟩
      exact same
  | cons d ds ih =>
    by_cases digit : d.isDigit
    · rw [readDigits, digit?_of_isDigit digit, Nat.ofDigitChars_cons, Nat.mul_comm 10]
      dsimp only
      generalize acc * 10 + (d.toNat - '0'.toNat) = next
      split
      · next above =>
        refine ⟨nofun, fun ⟨_, same, fits⟩ => ?_⟩
        have := le_ofDigitChars ds next
        omega
      · next fits =>
        rw [ih (Nat.not_lt.mp fits), List.forall_mem_cons, and_iff_right digit]
    · rw [readDigits, digit?_of_not_isDigit digit]
      exact ⟨nofun, fun ⟨all, _⟩ => absurd (all d List.mem_cons_self) digit⟩

theorem readNat_of_ne_plus {limit : Nat} {c : Char} {rest : List Char} (h : c ≠ '+') :
    readNat limit (c :: rest) = readDigits limit .tooLarge 0 (c :: rest) := by
  unfold readNat
  split
  · next empty => cases empty
  · next plus =>
    cases plus
    exact absurd rfl h
  · rfl

/-- what is read is the numeral of a number in range, and nothing else is -/
theorem readNat_eq_ok_iff {limit n : Nat} {cs : List Char} :
    readNat limit cs = .ok n ↔ Denotes cs n ∧ n ≤ limit := by
  constructor
  · intro read
    cases cs with
    | nil => cases read
    | cons c rest =>
      by_cases plus : c = '+'
      · subst plus
        cases rest with
        | nil => cases read
        | cons d ds =>
          obtain ⟨all, rfl, fits⟩ := (readDigits_eq_ok_iff (Nat.zero_le limit)).mp read
          exact ⟨.signed (List.cons_ne_nil d ds) all, fits⟩
      · rw [readNat_of_ne_plus plus] at read
        obtain ⟨all, rfl, fits⟩ := (readDigits_eq_ok_iff (Nat.zero_le limit)).mp read
        exact ⟨.plain (List.cons_ne_nil c rest) all, fits⟩
  · rintro ⟨denotes, fits⟩
    cases denotes with
    | plain some all =>
      obtain ⟨c, rest, rfl⟩ := List.exists_cons_of_ne_nil some
      have digit : c ≠ '+' := by
        rintro rfl
        exact absurd (all '+' List.mem_cons_self) (by decide)
      rw [readNat_of_ne_plus digit]
      exact (readDigits_eq_ok_iff (Nat.zero_le limit)).mpr ⟨all, rfl, fits⟩
    | signed some all =>
      obtain ⟨c, rest, rfl⟩ := List.exists_cons_of_ne_nil some
      exact (readDigits_eq_ok_iff (Nat.zero_le limit)).mpr ⟨all, rfl, fits⟩

/-- at a width: the words are the numbers up to the limit -/
theorem map_readNat_eq_ok_iff {α : Type} {limit : Nat} {word : Nat → α} {value : α → Nat}
    (onto : ∀ a, word (value a) = a) (into : ∀ n, n ≤ limit → value (word n) = n)
    (small : ∀ a, value a ≤ limit) {cs : List Char} {a : α} :
    (readNat limit cs).map word = .ok a ↔ Denotes cs (value a) := by
  constructor
  · intro read
    cases found : readNat limit cs with
    | error fault =>
      rw [found] at read
      cases read
    | ok n =>
      rw [found] at read
      obtain rfl : word n = a := Except.ok.inj read
      obtain ⟨denotes, fits⟩ := readNat_eq_ok_iff.mp found
      rw [into n fits]
      exact denotes
  · intro denotes
    rw [readNat_eq_ok_iff.mpr ⟨denotes, small a⟩]
    exact congrArg Except.ok (onto a)

theorem uint16_eq_ok_iff {s : String} {n : UInt16} :
    uint16 s = .ok n ↔ Denotes s.toList n.toNat :=
  map_readNat_eq_ok_iff (fun _ => UInt16.ofNat_toNat)
    (fun _ fits => UInt16.toNat_ofNat_of_lt' (Nat.lt_of_le_pred (by decide) fits))
    fun n => Nat.le_pred_of_lt n.toNat_lt

theorem uint16_ofNat (n : UInt16) : uint16 (ofNat n.toNat) = .ok n :=
  uint16_eq_ok_iff.mpr (denotes_ofNat n.toNat)

theorem uint32_eq_ok_iff {s : String} {n : UInt32} :
    uint32 s = .ok n ↔ Denotes s.toList n.toNat :=
  map_readNat_eq_ok_iff (fun _ => UInt32.ofNat_toNat)
    (fun _ fits => UInt32.toNat_ofNat_of_lt' (Nat.lt_of_le_pred (by decide) fits))
    fun n => Nat.le_pred_of_lt n.toNat_lt

end RespLink.Numeral
