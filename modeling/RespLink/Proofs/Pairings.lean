import Mathlib.Data.List.Perm.Basic
import RespLink.Transform

/-!
# Maps folded out of arrays

An array in which keys and values stand in turn becomes a map.  What a key is worth is its text, so
keys of different kinds can be the same; the last pair of a key is the one that counts.

* `Fields.Latest`      fields that hold under each key what the last of some pairs has;
* `Fields.latest_insertAll`   pairs that are written one after another leave such fields;
* `Latest.get?_congr`  with distinct keys the order of the pairs does not matter;
* `Key`, `Reply.Keyless`   the replies that are keys and those that are none;
* `foldPairs_items`, `foldPairs_keyless`   the fold over pairs, and at what is no key;
* `transform_pairs`    the whole array.
-/

namespace RespLink

/-! ## pairs written one after another -/

namespace Fields
variable {α : Type}

def insertAll (fields : Fields α) (pairs : List (String × α)) : Fields α :=
  pairs.foldl (fun fields pair => fields.insert pair.1 pair.2) fields

/-- one entry for each key, and in it what the last pair of the key has -/
structure Latest (fields : Fields α) (pairs : List (String × α)) : Prop where
  nodup : fields.keys.Nodup
  keys : ∀ key, key ∈ fields.keys ↔ key ∈ pairs.map Prod.fst
  last : ∀ before key value after, pairs = before ++ (key, value) :: after →
    key ∉ after.map Prod.fst → fields.get? key = some value

section
variable {fields other : Fields α} {pairs shuffled : List (String × α)}

theorem latest_nil : Latest ([] : Fields α) [] where
  nodup := List.nodup_nil
  keys _ := Iff.rfl
  last before key value after split := by simp at split

theorem Latest.insert (latest : fields.Latest pairs) (key : String) (value : α) :
    (fields.insert key value).Latest (pairs ++ [(key, value)]) where
  nodup := nodup_keys_insert key value fields latest.nodup
  keys k := by
    rw [mem_keys_insert, latest.keys, List.map_append, List.mem_append, or_comm]
    simp
  last before k v after split gone := by
    rw [get?_insert]
    obtain rfl | ⟨after, pair, rfl⟩ := List.eq_nil_or_concat' after
    · -- it is the pair that was written
      obtain ⟨_, same⟩ := List.append_inj' split rfl
      obtain ⟨rfl, rfl⟩ := Prod.mk.inj (List.cons.inj same).1
      rw [if_pos rfl]
    · rw [← List.cons_append, ← List.append_assoc] at split
      obtain ⟨earlier, same⟩ := List.append_inj' split rfl
      obtain rfl := (List.cons.inj same).1
      rw [List.map_append, List.mem_append, not_or] at gone
      rw [if_neg fun same => gone.2 (by simp [same])]
      exact latest.last before k v after earlier gone.1

theorem Latest.insertAll (latest : fields.Latest pairs) (more : List (String × α)) :
    (fields.insertAll more).Latest (pairs ++ more) := by
  induction more generalizing fields pairs with
  | nil =>
    rw [List.append_nil]
    exact latest
  | cons pair more ih =>
    have next := ih (latest.insert pair.1 pair.2)
    rw [List.append_assoc, List.singleton_append] at next
    exact next

theorem latest_insertAll (pairs : List (String × α)) : (insertAll [] pairs).Latest pairs :=
  latest_nil.insertAll pairs

/-! ## distinct keys -/

theorem Latest.get?_eq_some_iff (latest : fields.Latest pairs)
    (distinct : (pairs.map Prod.fst).Nodup) (key : String) (value : α) :
    fields.get? key = some value ↔ (key, value) ∈ pairs := by
  have held {v : α} (inside : (key, v) ∈ pairs) : fields.get? key = some v := by
    obtain ⟨before, after, rfl⟩ := List.append_of_mem inside
    refine latest.last before key v after rfl fun again => ?_
    rw [List.map_append, List.map_cons] at distinct
    exact (List.nodup_cons.mp (List.nodup_append.mp distinct).2.1).1 again
  refine ⟨fun found => ?_, held⟩
  have named : key ∈ pairs.map Prod.fst := by
    rw [← latest.keys, mem_keys_iff, found]
    rfl
  obtain ⟨⟨_, v⟩, inside, rfl⟩ := List.mem_map.mp named
  obtain rfl : v = value := Option.some.inj ((held inside).symm.trans found)
  exact inside

/-- with distinct keys the order of the pairs does not matter -/
theorem Latest.get?_congr (latest : fields.Latest pairs) (same : other.Latest shuffled)
    (distinct : (pairs.map Prod.fst).Nodup) (perm : shuffled.Perm pairs) (key : String) :
    other.get? key = fields.get? key := by
  have distinct' : (shuffled.map Prod.fst).Nodup := (perm.map Prod.fst).nodup_iff.mpr distinct
  ext value
  rw [same.get?_eq_some_iff distinct', latest.get?_eq_some_iff distinct, perm.mem_iff]

theorem Latest.length_eq (latest : fields.Latest pairs) (distinct : (pairs.map Prod.fst).Nodup) :
    fields.length = pairs.length := by
  have perm : fields.keys.Perm (pairs.map Prod.fst) :=
    (List.perm_ext_iff_of_nodup latest.nodup distinct).mpr latest.keys
  have length := perm.length_eq
  rw [Fields.keys, List.length_map, List.length_map] at length
  exact length

end
end Fields

/-! ## keys -/

/-- the replies that are keys -/
inductive Key where
  | simple (s : String)
  | error (s : String)
  | integer (n : Int64)
  | bulk (bytes : Bytes)
deriving DecidableEq, Repr

namespace Key

def reply : Key → Reply
  | simple s => .simple s
  | error s => .error s
  | integer n => .integer n
  | bulk bytes => .bulk bytes

/-- the text of the key in the map -/
def text (e : Encoding) : Key → String
  | simple s | error s => s
  | integer n => Numeral.ofInt n.toInt
  | bulk bytes => e.decode bytes

theorem pairKey_reply (e : Encoding) (key : Key) : pairKey e key.reply = .ok (key.text e) := by
  cases key <;> rw [reply, pairKey, element] <;> rfl

end Key

inductive Reply.Keyless : Reply → Prop
  | null : Keyless .null
  | nullArray : Keyless .nullArray
  | array (items : List Reply) : Keyless (.array items)

namespace Reply

theorem key_or_keyless (r : Reply) : (∃ key : Key, key.reply = r) ∨ r.Keyless := by
  cases r with
  | simple s => exact .inl ⟨.simple s, rfl⟩
  | error s => exact .inl ⟨.error s, rfl⟩
  | integer n => exact .inl ⟨.integer n, rfl⟩
  | bulk bytes => exact .inl ⟨.bulk bytes, rfl⟩
  | null => exact .inr .null
  | array items => exact .inr (.array items)
  | nullArray => exact .inr .nullArray

theorem Keyless.pairKey {r : Reply} (keyless : r.Keyless) (e : Encoding) :
    pairKey e r = .error (.conversion ("Invalid map key: " ++ (element .text e r).quoted)) := by
  cases keyless <;> rw [RespLink.pairKey, element]

end Reply

/-! ## the fold -/

/-- a key and a value as they stand in turn in an array -/
structure Pair where
  key : Key
  value : Reply
deriving Repr

namespace Pair

def items (p : Pair) : List Reply := [p.key.reply, p.value]

/-- what the pair leaves in the map if no later one has its key -/
def entry (shape : Shape) (e : Encoding) (p : Pair) : String × Value :=
  (p.key.text e, element shape e p.value)

end Pair

section
variable (shape : Shape) (e : Encoding) (fields : Fields Value)

theorem foldPairs_items (pairs : List Pair) (rest : List Reply) :
    foldPairs shape e fields (pairs.flatMap Pair.items ++ rest) =
      foldPairs shape e (fields.insertAll (pairs.map (Pair.entry shape e))) rest := by
  induction pairs generalizing fields with
  | nil => rfl
  | cons pair pairs ih =>
    rw [List.flatMap_cons, Pair.items, List.append_assoc, List.cons_append, List.singleton_append,
      foldPairs, pair.key.pairKey_reply]
    exact ih _

/-- the first reply in the place of a key that is none ends the fold -/
theorem foldPairs_keyless {key : Reply} (keyless : key.Keyless) (value : Reply) (rest : List Reply) :
    foldPairs shape e fields (key :: value :: rest) =
      .error (.conversion ("Invalid map key: " ++ (element .text e key).quoted)) := by
  rw [foldPairs, keyless.pairKey]

end

/-- of the replies in the places of keys, the first that is no key has pairs before it -/
theorem exists_keyless {items : List Reply} {i : Nat} {r : Reply} (even : items.length % 2 = 0)
    (place : items[2 * i]? = some r) (keyless : r.Keyless) :
    ∃ (pairs : List Pair) (key value : Reply) (rest : List Reply), key.Keyless ∧
      items = pairs.flatMap Pair.items ++ key :: value :: rest := by
  match items with
  | [] => cases place
  | [_] => cases even
  | first :: second :: rest =>
    obtain ⟨key, rfl⟩ | none := first.key_or_keyless
    · cases i with
      | zero =>
        obtain rfl : key.reply = r := Option.some.inj place
        cases key <;> cases keyless
      | succ i =>
        have shorter : rest.length % 2 = 0 := by
          rw [List.length_cons, List.length_cons] at even
          omega
        obtain ⟨pairs, bad, value, behind, none, rfl⟩ :=
          exists_keyless (i := i) shorter place keyless
        exact ⟨⟨key, second⟩ :: pairs, bad, value, behind, none, rfl⟩
    · exact ⟨[], first, second, rest, none, rfl⟩

/-! ## the whole array -/

theorem length_items (pairs : List Pair) : (pairs.flatMap Pair.items).length = 2 * pairs.length := by
  induction pairs with
  | nil => rfl
  | cons pair pairs ih =>
    rw [List.flatMap_cons, List.length_append, ih, List.length_cons]
    show 2 + 2 * pairs.length = _
    omega

section
variable (shape : Shape) (e : Encoding)

theorem transform_items (pairs : List Pair) :
    transform (.array (pairs.flatMap Pair.items)) .pairs shape e =
      .ok (.map (Fields.insertAll [] (pairs.map (Pair.entry shape e)))) := by
  have even := length_items pairs
  have fold := foldPairs_items shape e [] pairs []
  rw [List.append_nil] at fold
  show pairsOf shape e _ = _
  rw [pairsOf, if_neg (by omega), fold]
  rfl

theorem transform_keyless {items : List Reply} {i : Nat} {r : Reply} (even : items.length % 2 = 0)
    (place : items[2 * i]? = some r) (keyless : r.Keyless) :
    ∃ key, key.Keyless ∧ transform (.array items) .pairs shape e =
      .error (.conversion ("Invalid map key: " ++ (element .text e key).quoted)) := by
  obtain ⟨pairs, key, value, rest, none, rfl⟩ := exists_keyless even place keyless
  refine ⟨key, none, ?_⟩
  show pairsOf shape e _ = _
  rw [pairsOf, if_neg (by omega), foldPairs_items, foldPairs_keyless shape e _ none]
  rfl

/-- **Keys and values in turn become a map.**  It has the texts of the keys and no others, and under
each of them the value of the last pair of that text; if the texts are distinct, it has as many
entries as there are pairs, and the pairs in another order give a map that holds the same.  An odd
number of elements is no map, and neither is an array with a missing value or an array in the place of
a key. -/
theorem transform_pairs :
    (∀ pairs : List Pair, ∃ fields,
      transform (.array (pairs.flatMap Pair.items)) .pairs shape e = .ok (.map fields) ∧
      Fields.Latest fields (pairs.map (Pair.entry shape e)) ∧
      ((pairs.map fun p => p.key.text e).Nodup →
        fields.length = pairs.length ∧
        ∀ shuffled : List Pair, shuffled.Perm pairs → ∃ same,
          transform (.array (shuffled.flatMap Pair.items)) .pairs shape e = .ok (.map same) ∧
          same.length = pairs.length ∧ ∀ key, Fields.get? key same = Fields.get? key fields)) ∧
    (∀ items : List Reply, items.length % 2 = 1 → ∃ text,
      transform (.array items) .pairs shape e = .error (.conversion text)) ∧
    ∀ (items : List Reply) (i : Nat) (r : Reply), items.length % 2 = 0 → items[2 * i]? = some r →
      r.Keyless → ∃ text, transform (.array items) .pairs shape e = .error (.conversion text) := by
  refine ⟨fun pairs => ?_, fun items odd => ?_, fun items i r even place keyless => ?_⟩
  · have latest (ps : List Pair) := Fields.latest_insertAll (ps.map (Pair.entry shape e))
    have length {ps : List Pair} (distinct : ((ps.map (Pair.entry shape e)).map Prod.fst).Nodup) :
        (Fields.insertAll [] (ps.map (Pair.entry shape e))).length = ps.length := by
      rw [(latest ps).length_eq distinct, List.length_map]
    refine ⟨_, transform_items shape e pairs, latest pairs, fun texts => ?_⟩
    have distinct : ((pairs.map (Pair.entry shape e)).map Prod.fst).Nodup := by
      rw [List.map_map]
      exact texts
    refine ⟨length distinct, fun shuffled perm => ?_⟩
    have entries := perm.map (Pair.entry shape e)
    have distinct' := (entries.map Prod.fst).nodup_iff.mpr distinct
    exact ⟨_, transform_items shape e shuffled, (length distinct').trans perm.length_eq,
      (latest pairs).get?_congr (latest shuffled) distinct entries⟩
  · refine ⟨"Cannot build a map from " ++ Numeral.ofNat items.length ++ " elements", ?_⟩
    show pairsOf shape e items = _
    rw [pairsOf, if_pos (by omega)]
  · obtain ⟨key, _, fails⟩ := transform_keyless shape e even place keyless
    exact ⟨_, fails⟩

end

/-- a number and a byte string of the same text, two pairs in either order, a key that misses its
value, and an array that is none in the place of the second key -/
theorem transform_pairs_of_three :
    let pairs : List Pair := [⟨.integer 7, .integer 1⟩, ⟨.simple "a", .array [.null]⟩]
    let again : List Pair := pairs ++ [⟨.bulk [0x37], .bulk [0xE9]⟩]
    let bad : List Reply := [.integer 7, .null, .nullArray, .null]
    (∃ fields, transform (.array (again.flatMap Pair.items)) .pairs .map .latin1 = .ok (.map fields) ∧
      Fields.get? "7" fields = some (.text "é")) ∧
    ((pairs.map fun p => p.key.text .latin1).Nodup ∧ pairs.reverse.Perm pairs ∧ ∃ fields same,
      transform (.array (pairs.flatMap Pair.items)) .pairs .map .latin1 = .ok (.map fields) ∧
      transform (.array (pairs.reverse.flatMap Pair.items)) .pairs .map .latin1 = .ok (.map same) ∧
      Fields.get? "7" same = Fields.get? "7" fields ∧ fields.length = 2) ∧
    (∃ text, transform (.array [.null]) .pairs .map .latin1 = .error (.conversion text)) ∧
    bad.length % 2 = 0 ∧ bad[2 * 1]? = some .nullArray ∧ Reply.Keyless .nullArray ∧
    ∃ text, transform (.array bad) .pairs .map .latin1 = .error (.conversion text) := by
  intro pairs again bad
  obtain ⟨folds, odd, keyless⟩ := transform_pairs .map .latin1
  have distinct : (pairs.map fun p => p.key.text .latin1).Nodup := by decide +kernel
  have perm : pairs.reverse.Perm pairs := List.reverse_perm pairs
  have even : bad.length % 2 = 0 := by decide
  have place : bad[2 * 1]? = some .nullArray := by decide
  refine ⟨?_, ⟨distinct, perm, ?_⟩, odd [.null] rfl, even, place, .nullArray,
    keyless bad 1 .nullArray even place .nullArray⟩
  · obtain ⟨fields, becomes, latest, _⟩ := folds again
    have split : again.map (Pair.entry .map .latin1) =
        pairs.map (Pair.entry .map .latin1) ++ [("7", .text "é")] := by decide +kernel
    exact ⟨fields, becomes, latest.last _ _ _ [] split List.not_mem_nil⟩
  · obtain ⟨fields, becomes, _, orders⟩ := folds pairs
    obtain ⟨length, shuffles⟩ := orders distinct
    obtain ⟨same, becomes', _, agrees⟩ := shuffles _ perm
    exact ⟨fields, same, becomes, becomes', agrees "7", length⟩

end RespLink
