/-!
# Byte strings

Everything on the wire is a list of bytes.

* `crlf`        the two bytes that end a line of the protocol;
* `splitLine`   the bytes before the first `crlf` and the bytes after it;
* `pieces`      a byte string cut into pieces of a given size.
-/

namespace RespLink

abbrev Bytes := List UInt8

namespace Bytes

def cr : UInt8 := 13
def lf : UInt8 := 10

def crlf : Bytes := [cr, lf]

/-! ## lines -/

/-- the bytes before the first `crlf` and those after it -/
def splitLine : Bytes → Option (Bytes × Bytes)
  | [] => none
  | a :: rest =>
    if a = cr ∧ rest.head? = some lf then some ([], rest.tail)
    else (splitLine rest).map fun (line, after) => (a :: line, after)

theorem splitLine_crlf (rest : Bytes) : splitLine (crlf ++ rest) = some ([], rest) := by
  simp [splitLine, crlf]

/-- nothing is lost: the line, its end and what follows make up the input -/
theorem eq_of_splitLine {bs line after : Bytes} (h : splitLine bs = some (line, after)) :
    bs = line ++ crlf ++ after := by
  induction bs generalizing line with
  | nil => simp [splitLine] at h
  | cons a rest ih =>
    unfold splitLine at h
    split at h
    · next hc =>
      obtain ⟨rfl, hl⟩ := hc
      cases rest with
      | nil => simp at hl
      | cons b rest' =>
        simp only [List.head?_cons, Option.some.injEq] at hl
        subst hl
        simp only [List.tail_cons, Option.some.injEq, Prod.mk.injEq] at h
        obtain ⟨rfl, rfl⟩ := h
        rfl
    · obtain ⟨⟨l, r⟩, hs, he⟩ := Option.map_eq_some_iff.1 h
      simp only [Prod.mk.injEq] at he
      obtain ⟨rfl, rfl⟩ := he
      rw [ih hs]
      rfl

/-- a line has no end inside it -/
theorem splitLine_of_unbroken {line : Bytes} (unbroken : ¬ crlf <:+: line) (after : Bytes) :
    splitLine (line ++ crlf ++ after) = some (line, after) := by
  induction line with
  | nil => exact splitLine_crlf after
  | cons a line ih =>
    have inside : ¬ crlf <:+: line := fun h => unbroken (h.trans (List.suffix_cons a line).isInfix)
    have goes : ¬ (a = cr ∧ (line ++ crlf ++ after).head? = some lf) := by
      rintro ⟨rfl, next⟩
      cases line with
      | nil => cases next
      | cons b line =>
        cases next
        exact unbroken ⟨[], line, rfl⟩
    show splitLine (a :: (line ++ crlf ++ after)) = _
    rw [splitLine, if_neg goes, ih inside]
    rfl

theorem unbroken_of_splitLine {bs line after : Bytes} (h : splitLine bs = some (line, after)) :
    ¬ crlf <:+: line := by
  induction bs generalizing line with
  | nil => cases h
  | cons a rest ih =>
    rw [splitLine] at h
    split at h
    · cases h
      rintro ⟨before, behind, e⟩
      simp [crlf] at e
    · next goes =>
      obtain ⟨⟨l, r⟩, found, e⟩ := Option.map_eq_some_iff.1 h
      cases e
      rw [List.infix_cons_iff]
      rintro (first | inside)
      · -- the line would end at its first byte
        have all := eq_of_splitLine found
        obtain ⟨tail, e⟩ := first
        cases e
        exact goes ⟨rfl, by rw [all]; rfl⟩
      · exact ih found inside

/-- the line at the front ends at the first `crlf` -/
theorem splitLine_eq_some_iff {bs line after : Bytes} :
    splitLine bs = some (line, after) ↔ bs = line ++ crlf ++ after ∧ ¬ crlf <:+: line := by
  constructor
  · intro h
    exact ⟨eq_of_splitLine h, unbroken_of_splitLine h⟩
  · rintro ⟨rfl, unbroken⟩
    exact splitLine_of_unbroken unbroken after

/-! ## pieces -/

/-- consecutive pieces of `n` bytes, the last one as long as what is left; one piece if `n = 0` -/
def pieces (n : Nat) (bs : Bytes) : List Bytes :=
  go bs.length bs
where
  go : Nat → Bytes → List Bytes
    | _, [] => []
    | 0, bs => [bs]
    | fuel + 1, bs => if n = 0 then [bs] else bs.take n :: go fuel (bs.drop n)

private theorem flatten_pieces_go (n fuel : Nat) (bs : Bytes) :
    (pieces.go n fuel bs).flatten = bs := by
  induction fuel generalizing bs with
  | zero => cases bs <;> simp [pieces.go]
  | succ fuel ih =>
    cases bs with
    | nil => simp [pieces.go]
    | cons b bs =>
      unfold pieces.go
      split
      · simp
      · rw [List.flatten_cons, ih, List.take_append_drop]

/-- the pieces, put together again, are the input -/
theorem flatten_pieces (n : Nat) (bs : Bytes) : (pieces n bs).flatten = bs :=
  flatten_pieces_go n bs.length bs

end Bytes
end RespLink
