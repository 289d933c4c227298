import Mathlib.Data.List.DropRight
import RespLink.Proofs.Characters
import RespLink.Text.Blank
import RespLink.Text.Lowercase

/-!
# Lower case and white space

Lower case turns no white space into anything else and nothing else into white space, so a text whose
lower-case form has no white space at its ends has none at its own.

* `isBlank_lowerChar`   one character, from the tables of both properties;
* `lowerFrom_cons`, `lowerFrom_concat`   the characters in which lower case begins and ends;
* `Trimmed`             no white space at the ends;
* `trimmed_lowercase_iff`   a text and its lower-case form are trimmed alike;
* `trimmed_trim`, `trim_of_trimmed`   trimming makes a text trimmed and leaves such a text as it is.
-/

namespace RespLink

theorem CharTable.exists_range {table : CharTable} {n : Nat} (h : table.holds n = true) :
    ∃ range ∈ table, range.1 ≤ n ∧ n ≤ range.2 := by
  induction table with
  | nil => cases h
  | cons range rest ih =>
    rw [holds] at h
    split at h
    · next upTo => exact ⟨range, List.mem_cons_self, of_decide_eq_true h, upTo⟩
    · obtain ⟨range, inside, bounds⟩ := ih h
      exact ⟨range, List.mem_cons_of_mem _ inside, bounds⟩

namespace Text

/-! ## one character -/

/-- no run has white space in it, before or after its shift -/
theorem lowerRuns_apart : ∀ run ∈ lowerRuns, ∀ range ∈ blankTable,
    (run.last < range.1 ∨ range.2 < run.first) ∧
      (run.last + run.shift < (range.1 : Int) ∨ (range.2 : Int) < run.first + run.shift) := by
  decide +kernel

theorem isBlank_of_apart {c : Char} (h : ∀ range ∈ blankTable, c.toNat < range.1 ∨ range.2 < c.toNat) :
    isBlank c = false := by
  rw [Bool.eq_false_iff]
  intro blank
  obtain ⟨range, inside, low, high⟩ := CharTable.exists_range blank
  have apart := h range inside
  omega

/-- a character that the table changes is in one of its runs -/
theorem lowerChar_cases (c : Char) : lowerChar c = c ∨ ∃ run ∈ lowerRuns,
    run.first ≤ c.toNat ∧ c.toNat ≤ run.last ∧
      lowerChar c = Char.ofNat ((c.toNat : Int) + run.shift).toNat := by
  rw [lowerChar]
  split
  · next run found =>
    split
    · next member =>
      have ends := List.find?_some found
      exact .inr ⟨run, List.mem_of_find?_eq_some found, member.1, of_decide_eq_true ends, rfl⟩
    · exact .inl rfl
  · exact .inl rfl

theorem lowerChar_of_blank {c : Char} (blank : isBlank c = true) : lowerChar c = c := by
  obtain same | ⟨run, known, low, high, _⟩ := lowerChar_cases c
  · exact same
  · have other : isBlank c = false := isBlank_of_apart fun range inside => by
      have own := (lowerRuns_apart run known range inside).1
      omega
    rw [other] at blank
    cases blank

theorem isBlank_lowerChar (c : Char) : isBlank (lowerChar c) = isBlank c := by
  cases blank : isBlank c with
  | true => rw [lowerChar_of_blank blank, blank]
  | false =>
    obtain same | ⟨run, known, low, high, lowered⟩ := lowerChar_cases c
    · rw [same, blank]
    · rw [lowered]
      obtain value | none := Utf8.toNat_charOfNat_cases ((c.toNat : Int) + run.shift).toNat
      · refine isBlank_of_apart fun range inside => ?_
        have shifted := (lowerRuns_apart run known range inside).2
        have positive : ∀ range ∈ blankTable, 0 < range.1 := by decide
        have least := positive range inside
        rw [value]
        omega
      · rw [isBlank, CharTable.has, none]
        rfl

/-! ## the ends of a text -/

/-- lower case takes the characters in turn; what it makes of one is blank if and only if that is -/
theorem lowerFrom_cons (before : List Char) (c : Char) (rest : List Char) :
    ∃ first more, lowerFrom before (c :: rest) = first :: more ++ lowerFrom (c :: before) rest ∧
      ∀ d ∈ first :: more, isBlank d = isBlank c := by
  rw [lowerFrom]
  split
  · next sigma =>
    refine ⟨_, [], rfl, fun d inside => ?_⟩
    rw [List.mem_singleton.mp inside, sigma]
    split <;> decide
  split
  · next dotted =>
    refine ⟨'i', [dotAbove], rfl, fun d inside => ?_⟩
    rw [dotted]
    simp only [List.mem_cons, List.not_mem_nil, or_false] at inside
    obtain rfl | rfl := inside <;> decide
  · refine ⟨lowerChar c, [], rfl, fun d inside => ?_⟩
    rw [List.mem_singleton.mp inside, isBlank_lowerChar]

theorem lowerFrom_concat (before cs : List Char) (c : Char) :
    ∃ front last, lowerFrom before (cs ++ [c]) = front ++ [last] ∧ isBlank last = isBlank c := by
  induction cs generalizing before with
  | nil =>
    obtain ⟨first, more, whole, alike⟩ := lowerFrom_cons before c []
    refine ⟨(first :: more).dropLast, (first :: more).getLast (List.cons_ne_nil _ _), ?_,
      alike _ (List.getLast_mem _)⟩
    rw [List.dropLast_append_getLast, List.nil_append, whole]
    exact List.append_nil _
  | cons d cs ih =>
    obtain ⟨first, more, whole, _⟩ := lowerFrom_cons before d (cs ++ [c])
    obtain ⟨front, last, behind, alike⟩ := ih (d :: before)
    exact ⟨first :: more ++ front, last, by rw [List.cons_append, whole, behind, List.append_assoc],
      alike⟩

theorem lowerFrom_of_blank {c : Char} (blank : isBlank c = true) (before rest : List Char) :
    lowerFrom before (c :: rest) = c :: lowerFrom (c :: before) rest := by
  have plain : c ≠ capitalSigma ∧ c ≠ dottedCapitalI := by
    constructor <;> rintro rfl <;> exact absurd blank (by decide)
  rw [lowerFrom, if_neg plain.1, if_neg plain.2, lowerChar_of_blank blank]
  rfl

/-- white space is still there in lower case -/
theorem mem_lowerFrom_of_blank {c : Char} (blank : isBlank c = true) {cs : List Char} (inside : c ∈ cs)
    (before : List Char) : c ∈ lowerFrom before cs := by
  induction cs generalizing before with
  | nil => cases inside
  | cons d rest ih =>
    obtain rfl | behind := List.mem_cons.mp inside
    · rw [lowerFrom_of_blank blank]
      exact List.mem_cons_self
    · obtain ⟨first, more, whole, _⟩ := lowerFrom_cons before d rest
      rw [whole]
      exact List.mem_append_right _ (ih behind (d :: before))

/-- no white space at the ends -/
structure Trimmed (cs : List Char) : Prop where
  first : ∀ c ∈ cs.head?, isBlank c = false
  last : ∀ c ∈ cs.getLast?, isBlank c = false

theorem trimmed_lowercase_iff (cs : List Char) : Trimmed (lowercase cs) ↔ Trimmed cs := by
  have first : (∀ c ∈ (lowercase cs).head?, isBlank c = false) ↔ ∀ c ∈ cs.head?, isBlank c = false := by
    cases cs with
    | nil => rfl
    | cons c rest =>
      obtain ⟨first, more, whole, alike⟩ := lowerFrom_cons [] c rest
      rw [lowercase, whole]
      simp [alike first List.mem_cons_self]
  have last : (∀ c ∈ (lowercase cs).getLast?, isBlank c = false) ↔
      ∀ c ∈ cs.getLast?, isBlank c = false := by
    obtain rfl | ⟨front, c, rfl⟩ := List.eq_nil_or_concat' cs
    · rfl
    · obtain ⟨lowered, last, whole, alike⟩ := lowerFrom_concat [] front c
      rw [lowercase, whole]
      simp [alike]
  exact ⟨fun h => ⟨first.mp h.first, last.mp h.last⟩, fun h => ⟨first.mpr h.first, last.mpr h.last⟩⟩

/-! ## trimming -/

section
variable {α : Type} {p : α → Bool} {l : List α}

theorem dropLastWhile_eq (p : α → Bool) (l : List α) : dropLastWhile p l = l.rdropWhile p := rfl

theorem dropLastWhile_of_last (h : ∀ a ∈ l.getLast?, p a = false) : dropLastWhile p l = l := by
  rw [dropLastWhile_eq, List.rdropWhile_eq_self_iff]
  intro nonempty
  rw [h _ (List.getLast?_eq_some_getLast nonempty)]
  exact Bool.false_ne_true

theorem dropLastWhile_concat {a : α} (h : p a = true) :
    dropLastWhile p (l ++ [a]) = dropLastWhile p l :=
  List.rdropWhile_concat_pos p l a h

end

theorem trimmed_trim (cs : List Char) : Trimmed (trim cs) where
  first c front := by
    obtain ⟨dropped, whole⟩ := List.rdropWhile_prefix isBlank (cs.dropWhile isBlank)
    have start : (cs.dropWhile isBlank).head? = some c := by
      rw [← whole]
      exact List.mem_head?_append_of_mem_head? front
    have stops := List.head?_dropWhile_not isBlank cs
    rw [start] at stops
    exact stops
  last c back := by
    obtain ⟨nonempty, rfl⟩ := List.mem_getLast?_eq_getLast back
    exact Bool.eq_false_iff.mpr (List.rdropWhile_last_not isBlank (cs.dropWhile isBlank) nonempty)

theorem trim_of_trimmed {cs : List Char} (h : Trimmed cs) : trim cs = cs := by
  have front : cs.dropWhile isBlank = cs := by
    cases cs with
    | nil => rfl
    | cons c rest =>
      refine List.dropWhile_cons_of_neg ?_
      rw [h.first c rfl]
      exact Bool.false_ne_true
  rw [trim, front, dropLastWhile_of_last h.last]

/-- a text whose lower-case form is that of a trimmed text is trimmed -/
theorem trimmed_of_lowercase {name title : List Char} (own : lowercase (trim name) = name)
    (lowered : lowercase title = name) : Trimmed title := by
  rw [← trimmed_lowercase_iff, lowered, ← own, trimmed_lowercase_iff]
  exact trimmed_trim name

end Text
end RespLink
