/-!
# Texts cut in two

* `splitOnce`  at the first place where a character stands;
* `splitLast`  at the last one.

The character itself belongs to neither part.
-/

namespace RespLink

def splitOnce (sep : Char) : List Char → Option (List Char × List Char)
  | [] => none
  | c :: rest =>
    if c = sep then some ([], rest)
    else (splitOnce sep rest).map fun (before, after) => (c :: before, after)

def splitLast (sep : Char) (cs : List Char) : Option (List Char × List Char) :=
  (splitOnce sep cs.reverse).map fun (after, before) => (before.reverse, after.reverse)

theorem splitOnce_eq_some_iff (sep : Char) (cs before after : List Char) :
    splitOnce sep cs = some (before, after) ↔ cs = before ++ sep :: after ∧ sep ∉ before := by
  induction cs generalizing before with
  | nil => simp [splitOnce]
  | cons c rest ih =>
    unfold splitOnce
    by_cases h : c = sep
    · subst h
      cases before with
      | nil => simp [eq_comm]
      | cons b before =>
        simp only [if_true, Option.some.injEq, Prod.mk.injEq]
        constructor
        · rintro ⟨h, -⟩; simp at h
        · rintro ⟨h, hn⟩; simp at h; exact absurd h.1 (fun e => hn (by simp [e]))
    · cases before with
      | nil =>
        simp only [h, if_false, Option.map_eq_some_iff]
        constructor
        · rintro ⟨⟨a, b⟩, -, e⟩; simp at e
        · rintro ⟨e, -⟩; simp at e; exact absurd e.1 h
      | cons b before =>
        simp only [h, if_false, Option.map_eq_some_iff, Prod.exists, Prod.mk.injEq,
          List.cons.injEq, List.cons_append, List.mem_cons, not_or]
        constructor
        · rintro ⟨x, y, hs, ⟨rfl, rfl⟩, rfl⟩
          obtain ⟨he, hn⟩ := (ih x).1 hs
          exact ⟨⟨rfl, he⟩, fun e => h e.symm, hn⟩
        · rintro ⟨⟨rfl, he⟩, -, hn⟩
          exact ⟨before, after, (ih before).2 ⟨he, hn⟩, ⟨rfl, rfl⟩, rfl⟩

theorem splitLast_eq_some_iff (sep : Char) (cs before after : List Char) :
    splitLast sep cs = some (before, after) ↔ cs = before ++ sep :: after ∧ sep ∉ after := by
  unfold splitLast
  rw [Option.map_eq_some_iff]
  constructor
  · rintro ⟨⟨a, b⟩, hs, he⟩
    simp only [Prod.mk.injEq] at he
    obtain ⟨rfl, rfl⟩ := he
    obtain ⟨h, hn⟩ := (splitOnce_eq_some_iff sep _ _ _).1 hs
    refine ⟨?_, by simpa using hn⟩
    have := congrArg List.reverse h
    simpa using this
  · rintro ⟨rfl, hn⟩
    exact ⟨(after.reverse, before.reverse),
      (splitOnce_eq_some_iff sep _ _ _).2 ⟨by simp, by simpa using hn⟩, by simp⟩

end RespLink
