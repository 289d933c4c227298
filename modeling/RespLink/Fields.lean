/-!
# Fields

A `Fields α` maps texts to values, as a list of pairs in the order in which the keys were first
written.

* `get?`    the value under a key;
* `insert`  writes a value: a key that is there keeps its place, a new one goes to the end;
* `erase`   removes a key.

The lemmas say what each operation does to `get?`.
-/

namespace RespLink

abbrev Fields (α : Type) := List (String × α)

namespace Fields
variable {α : Type}

def get? (key : String) : Fields α → Option α
  | [] => none
  | (k, v) :: rest => if k = key then some v else get? key rest

def insert (key : String) (value : α) : Fields α → Fields α
  | [] => [(key, value)]
  | (k, v) :: rest => if k = key then (key, value) :: rest else (k, v) :: insert key value rest

def erase (key : String) (fields : Fields α) : Fields α := fields.filter fun (k, _) => k ≠ key

def keys (fields : Fields α) : List String := fields.map Prod.fst

def has (key : String) (fields : Fields α) : Bool := (fields.get? key).isSome

theorem get?_nil (key : String) : get? key ([] : Fields α) = none := rfl

theorem get?_insert (key k : String) (value : α) (fields : Fields α) :
    (fields.insert key value).get? k = if key = k then some value else fields.get? k := by
  induction fields with
  | nil => simp [insert, get?]
  | cons f rest ih =>
    obtain ⟨k', v'⟩ := f
    unfold insert
    by_cases h : k' = key
    · subst h
      by_cases hk : k' = k <;> simp [get?, hk]
    · by_cases hk : k' = k
      · subst hk
        have h' : key ≠ k' := fun e => h e.symm
        simp [get?, h, h']
      · simp [get?, h, hk, ih]

theorem get?_append {key : String} {fields : Fields α} (missing : key ∉ fields.keys) (more : Fields α) :
    get? key (fields ++ more) = more.get? key := by
  induction fields with
  | nil => rfl
  | cons f rest ih =>
    obtain ⟨other, apart⟩ := not_or.1 fun h => missing (List.mem_cons.2 h)
    show (if f.1 = key then some f.2 else get? key (rest ++ more)) = _
    rw [if_neg (Ne.symm other), ih apart]

theorem insert_append {key : String} {fields : Fields α} (missing : key ∉ fields.keys) (value : α)
    (more : Fields α) : insert key value (fields ++ more) = fields ++ more.insert key value := by
  induction fields with
  | nil => rfl
  | cons f rest ih =>
    obtain ⟨other, apart⟩ := not_or.1 fun h => missing (List.mem_cons.2 h)
    show (if f.1 = key then (key, value) :: (rest ++ more) else f :: insert key value (rest ++ more)) = _
    rw [if_neg (Ne.symm other), ih apart]
    rfl

theorem get?_erase (key k : String) (fields : Fields α) :
    (fields.erase key).get? k = if key = k then none else fields.get? k := by
  induction fields with
  | nil => simp [erase, get?]
  | cons f rest ih =>
    obtain ⟨k', v'⟩ := f
    unfold erase at ih ⊢
    by_cases h : k' = key
    · subst h
      by_cases hk : k' = k
      · simpa [List.filter_cons, hk] using ih
      · simpa [List.filter_cons, get?, hk] using ih
    · by_cases hk : k' = k
      · subst hk
        have h' : key ≠ k' := fun e => h e.symm
        simp [get?, h, h']
      · simp only [List.filter_cons, h, ne_eq, not_false_eq_true, decide_true, if_true, get?, hk,
          if_false]
        exact ih

theorem mem_keys_iff (key : String) (fields : Fields α) :
    key ∈ fields.keys ↔ (fields.get? key).isSome = true := by
  induction fields with
  | nil => simp [keys, get?]
  | cons f rest ih =>
    obtain ⟨k', v'⟩ := f
    by_cases h : k' = key
    · simp [keys, get?, h]
    · have h' : key ≠ k' := fun e => h e.symm
      simp only [keys, List.map_cons, List.mem_cons, h', false_or, get?, h, if_false] at ih ⊢
      exact ih

theorem keys_insert (key : String) (value : α) (fields : Fields α) :
    (fields.insert key value).keys = if key ∈ fields.keys then fields.keys else fields.keys ++ [key] := by
  induction fields with
  | nil => simp [insert, keys]
  | cons f rest ih =>
    obtain ⟨k', v'⟩ := f
    unfold insert
    by_cases h : k' = key
    · simp [keys, h]
    · have h' : key ≠ k' := fun e => h e.symm
      simp only [keys, h, if_false, List.map_cons, List.mem_cons, h', false_or] at ih ⊢
      rw [ih]
      split <;> simp_all

theorem mem_keys_insert (key k : String) (value : α) (fields : Fields α) :
    k ∈ (fields.insert key value).keys ↔ k = key ∨ k ∈ fields.keys := by
  rw [keys_insert]
  split
  · next hk => exact ⟨.inr, fun h => h.elim (fun e => e ▸ hk) id⟩
  · rw [List.mem_append, List.mem_singleton, or_comm]

theorem mem_keys_erase (key k : String) (fields : Fields α) :
    k ∈ (fields.erase key).keys ↔ k ≠ key ∧ k ∈ fields.keys := by
  rw [mem_keys_iff, mem_keys_iff, get?_erase]
  split
  · next h => simp [h]
  · next h => simp [Ne.symm h]

/-- writing never makes a key stand twice -/
theorem nodup_keys_insert (key : String) (value : α) (fields : Fields α) (h : fields.keys.Nodup) :
    (fields.insert key value).keys.Nodup := by
  rw [keys_insert]
  split
  · exact h
  · next hk => exact List.nodup_append.2 ⟨h, by simp, fun a ha b hb e => hk (by simp_all)⟩

theorem nodup_keys_erase (key : String) (fields : Fields α) (h : fields.keys.Nodup) :
    (fields.erase key).keys.Nodup := by
  unfold keys erase at *
  exact h.sublist (List.Sublist.map _ List.filter_sublist)

end Fields
end RespLink
