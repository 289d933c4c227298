import RespLink.Config
import RespLink.Proofs.Lowering
import RespLink.Proofs.Numerals

/-!
# Connection strings

A connection string is a host, a port behind a colon and a database behind a slash, the last two of
which may be left out, with or without the scheme in front.

* `Locator`         the parts of a connection string, and its text;
* `Locator.Plain`   parts that hold neither what divides them nor white space;
* `splitOnce_eq_none_iff`, `splitLast_eq_none_iff`   a character that is not there divides nothing;
* `withoutScheme_chars`   the scheme is taken off if it is there, and nothing else is;
* `splitOnce_address`   the slash divides the database from host and port;
* `withEndpoint_of_left_out`, `withEndpoint_of_numeral`, `withEndpoint_of_word`   host and port: the
                    port is left out, is a numeral in range, or is neither;
* `Locator.Gives`, `Locator.gives_ofConnectionString`   the configuration that a connection string
                    gives.

A port that is no numeral in range is not left out: it stays with the host, colon and all.
-/

namespace RespLink

/-! ## texts that nothing divides -/

section
variable {sep : Char} {cs : List Char}

theorem splitOnce_eq_none_iff : splitOnce sep cs = none ↔ sep ∉ cs := by
  constructor
  · intro whole inside
    obtain ⟨before, after, rfl, first⟩ := List.eq_append_cons_of_mem inside
    rw [(splitOnce_eq_some_iff sep _ before after).mpr ⟨rfl, first⟩] at whole
    cases whole
  · intro outside
    cases found : splitOnce sep cs with
    | none => rfl
    | some parts =>
      obtain ⟨rfl, -⟩ := (splitOnce_eq_some_iff sep _ parts.1 parts.2).mp found
      exact absurd (List.mem_append_right _ List.mem_cons_self) outside

theorem splitLast_eq_none_iff : splitLast sep cs = none ↔ sep ∉ cs := by
  rw [splitLast, Option.map_eq_none_iff, splitOnce_eq_none_iff, List.mem_reverse]

end

theorem Text.trim_of_not_blank {cs : List Char} (h : ∀ c ∈ cs, isBlank c = false) : trim cs = cs :=
  trim_of_trimmed ⟨fun c front => h c (List.mem_of_mem_head? front),
    fun c back => h c (List.mem_of_mem_getLast? back)⟩

/-! ## the parts of a connection string -/

/-- a character that neither divides a connection string nor is white space -/
def isPlain (c : Char) : Bool := c ≠ ':' && c ≠ '/' && !Text.isBlank c

theorem isPlain_iff {c : Char} : isPlain c = true ↔ c ≠ ':' ∧ c ≠ '/' ∧ Text.isBlank c = false := by
  simp [isPlain, and_assoc]

structure Locator where
  schemed : Bool
  host : String
  port? : Option String
  database? : Option String
deriving DecidableEq, Repr

namespace Locator

/-- a part that may be left out, behind what divides it from the part before -/
def behind (sep : Char) : Option String → List Char
  | none => []
  | some part => sep :: part.toList

/-- host and port -/
def endpoint (l : Locator) : List Char := l.host.toList ++ behind ':' l.port?

/-- all but the scheme -/
def address (l : Locator) : List Char := l.endpoint ++ behind '/' l.database?

def chars (l : Locator) : List Char :=
  if l.schemed then Config.scheme ++ l.address else l.address

def text (l : Locator) : String := String.ofList l.chars

structure Plain (l : Locator) : Prop where
  named : l.host ≠ ""
  host : l.host.toList.all isPlain = true
  port : ∀ port ∈ l.port?, port.toList.all isPlain = true
  database : ∀ database ∈ l.database?, database.toList.all isPlain = true

/-- what a configuration takes from the parts, all else being as it is by default -/
structure Gives (l : Locator) (config : Config) : Prop where
  only : config = { Config.default with
    host := config.host, port := config.port, database := config.database }
  database : ∀ n, config.database = some n ↔
    ∃ database ∈ l.database?, Numeral.Denotes database.toList n.toNat
  left_out : l.port? = none → config.host = l.host ∧ config.port = defaultPort
  numeral : ∀ port ∈ l.port?, ∀ n : UInt16, Numeral.Denotes port.toList n.toNat →
    config.host = l.host ∧ config.port = n
  word : ∀ port ∈ l.port?, (∀ n : UInt16, ¬ Numeral.Denotes port.toList n.toNat) →
    config.host = l.host ++ ":" ++ port ∧ config.port = defaultPort

theorem mem_behind {sep c : Char} {part? : Option String}
    (parts : ∀ part ∈ part?, part.toList.all isPlain = true) (h : c ∈ behind sep part?) :
    c = sep ∨ isPlain c = true := by
  cases part? with
  | none => cases h
  | some part =>
    obtain rfl | inside := List.mem_cons.mp h
    · exact .inl rfl
    · exact .inr (List.all_eq_true.mp (parts part rfl) c inside)

theorem not_mem_of_plain {part : String} (own : part.toList.all isPlain = true) :
    ':' ∉ part.toList ∧ '/' ∉ part.toList :=
  ⟨fun inside => (isPlain_iff.mp (List.all_eq_true.mp own _ inside)).1 rfl,
    fun inside => (isPlain_iff.mp (List.all_eq_true.mp own _ inside)).2.1 rfl⟩

section
variable {l : Locator} (plain : l.Plain)
include plain

theorem mem_endpoint {c : Char} (h : c ∈ l.endpoint) : c = ':' ∨ isPlain c = true := by
  obtain inside | inside := List.mem_append.mp h
  · exact .inr (List.all_eq_true.mp plain.host c inside)
  · exact mem_behind plain.port inside

theorem slash_not_mem_endpoint : '/' ∉ l.endpoint := by
  intro inside
  obtain colon | own := mem_endpoint plain inside
  · exact absurd colon (by decide)
  · exact (isPlain_iff.mp own).2.1 rfl

theorem not_blank_of_mem_address {c : Char} (h : c ∈ l.address) : Text.isBlank c = false := by
  have dividing : Text.isBlank ':' = false ∧ Text.isBlank '/' = false := by decide
  obtain inside | inside := List.mem_append.mp h
  · obtain rfl | own := mem_endpoint plain inside
    · exact dividing.1
    · exact (isPlain_iff.mp own).2.2
  · obtain rfl | own := mem_behind plain.database inside
    · exact dividing.2
    · exact (isPlain_iff.mp own).2.2

theorem trim_chars : Text.trim l.chars = l.chars := by
  refine Text.trim_of_not_blank fun c inside => ?_
  have scheme : Config.scheme.all (fun c => !Text.isBlank c) = true := by decide
  rw [chars] at inside
  split at inside
  · obtain front | back := List.mem_append.mp inside
    · have own := List.all_eq_true.mp scheme c front
      rwa [Bool.not_eq_true'] at own
    · exact not_blank_of_mem_address plain back
  · exact not_blank_of_mem_address plain inside

/-- the scheme has two slashes -/
theorem count_slash_address : l.address.count '/' ≤ 1 := by
  rw [address, List.count_append, List.count_eq_zero.mpr (slash_not_mem_endpoint plain), Nat.zero_add]
  cases database : l.database? with
  | none => exact Nat.zero_le 1
  | some d =>
    have own : '/' ∉ d.toList := fun inside =>
      (isPlain_iff.mp (List.all_eq_true.mp (plain.database d database) _ inside)).2.1 rfl
    rw [behind, List.count_cons_self, List.count_eq_zero.mpr own]

theorem withoutScheme_chars : Config.withoutScheme l.chars = l.address := by
  rw [Config.withoutScheme, chars]
  split
  · rw [List.take_left, if_pos rfl, List.drop_left]
  · refine if_neg fun schemed => ?_
    have front : Config.scheme.count '/' ≤ l.address.count '/' := by
      rw [← schemed]
      exact (List.take_sublist _ _).count_le _
    have two : Config.scheme.count '/' = 2 := by decide
    have one := count_slash_address plain
    omega

theorem splitOnce_address : splitOnce '/' l.address =
    l.database?.map fun database => (l.endpoint, database.toList) := by
  rw [address]
  cases l.database? with
  | none =>
    rw [behind, List.append_nil]
    exact splitOnce_eq_none_iff.mpr (slash_not_mem_endpoint plain)
  | some database =>
    exact (splitOnce_eq_some_iff '/' _ _ _).mpr ⟨rfl, slash_not_mem_endpoint plain⟩

/-! ## host and port -/

theorem endpoint_ne_nil : l.endpoint ≠ [] := by
  intro empty
  have host : l.host.toList = [] := (List.append_eq_nil_iff.mp empty).1
  exact plain.named (String.toList_eq_nil_iff.mp host)

theorem withEndpoint_of_left_out (config : Config) (none : l.port? = none) :
    config.withEndpoint l.endpoint = { config with host := l.host } := by
  have host : l.endpoint = l.host.toList := by rw [endpoint, none, behind, List.append_nil]
  rw [Config.withEndpoint, if_neg (endpoint_ne_nil plain), host,
    splitLast_eq_none_iff.mpr ((not_mem_of_plain plain.host).1), String.ofList_toList]

theorem splitLast_endpoint {port : String} (given : l.port? = some port) :
    splitLast ':' l.endpoint = some (l.host.toList, port.toList) := by
  refine (splitLast_eq_some_iff ':' _ _ _).mpr ⟨?_, (not_mem_of_plain (plain.port port given)).1⟩
  rw [endpoint, given, behind]

theorem withEndpoint_of_numeral (config : Config) {port : String} (given : l.port? = some port)
    {n : UInt16} (denotes : Numeral.Denotes port.toList n.toNat) :
    config.withEndpoint l.endpoint = { config with host := l.host, port := n } := by
  rw [Config.withEndpoint, splitLast_endpoint plain given]
  dsimp only
  rw [String.ofList_toList, Numeral.uint16_eq_ok_iff.mpr denotes, String.ofList_toList]

theorem withEndpoint_of_word (config : Config) {port : String} (given : l.port? = some port)
    (word : ∀ n : UInt16, ¬ Numeral.Denotes port.toList n.toNat) :
    config.withEndpoint l.endpoint = { config with host := l.host ++ ":" ++ port } := by
  have whole : String.ofList l.endpoint = l.host ++ ":" ++ port := by
    apply String.toList_injective
    rw [endpoint, given, behind, String.toList_ofList, String.toList_append, String.toList_append,
      List.append_assoc]
    rfl
  rw [Config.withEndpoint, if_neg (endpoint_ne_nil plain), splitLast_endpoint plain given, whole]
  dsimp only
  rw [String.ofList_toList]
  cases read : Numeral.uint16 port with
  | ok n => exact absurd (Numeral.uint16_eq_ok_iff.mp read) (word n)
  | error fault => rfl

/-- what is set for host and port comes from these two parts, and nothing else is set -/
theorem withEndpoint_frame (config : Config) : ∃ host port,
    config.withEndpoint l.endpoint = { config with host := host, port := port } := by
  cases given : l.port? with
  | none => exact ⟨_, _, withEndpoint_of_left_out plain config given⟩
  | some port =>
    by_cases numeral : ∃ n : UInt16, Numeral.Denotes port.toList n.toNat
    · obtain ⟨n, denotes⟩ := numeral
      exact ⟨_, _, withEndpoint_of_numeral plain config given denotes⟩
    · exact ⟨_, _, withEndpoint_of_word plain config given (not_exists.mp numeral)⟩

end

/-! ## the whole of it -/

/-- the number of the database, if it has one -/
def number? (l : Locator) : Option UInt32 :=
  l.database?.bind fun database => (Numeral.uint32 database).toOption

theorem number?_eq_some_iff {l : Locator} {n : UInt32} :
    l.number? = some n ↔ ∃ database ∈ l.database?, Numeral.Denotes database.toList n.toNat := by
  have read (database : String) : (Numeral.uint32 database).toOption = some n ↔
      Numeral.Denotes database.toList n.toNat := by
    rw [← Numeral.uint32_eq_ok_iff]
    cases Numeral.uint32 database <;> simp [Except.toOption]
  simp only [number?, Option.bind_eq_some_iff, read, Option.mem_def]

theorem ofConnectionString_eq {l : Locator} (plain : l.Plain) :
    Config.ofConnectionString l.text =
      Config.withEndpoint { Config.default with database := l.number? } l.endpoint := by
  rw [Config.ofConnectionString, text, String.toList_ofList, trim_chars plain,
    withoutScheme_chars plain, splitOnce_address plain]
  cases given : l.database? with
  | none =>
    have whole : l.address = l.endpoint := by rw [address, given, behind, List.append_nil]
    rw [number?, given, whole]
    rfl
  | some database =>
    rw [number?, given, Option.map_some]
    dsimp only
    rw [String.ofList_toList]
    rfl

theorem gives_ofConnectionString (l : Locator) (plain : l.Plain) :
    l.Gives (Config.ofConnectionString l.text) := by
  rw [ofConnectionString_eq plain]
  obtain ⟨host, port, set⟩ := withEndpoint_frame plain { Config.default with database := l.number? }
  constructor
  case only => rw [set]
  case database =>
    intro n
    rw [set]
    exact number?_eq_some_iff
  case left_out =>
    intro none
    rw [withEndpoint_of_left_out plain _ none]
    exact ⟨rfl, rfl⟩
  case numeral =>
    intro port given n denotes
    rw [withEndpoint_of_numeral plain _ given denotes]
    exact ⟨rfl, rfl⟩
  case word =>
    intro port given word
    rw [withEndpoint_of_word plain _ given word]
    exact ⟨rfl, rfl⟩

/-- a port in range, with leading zeros, and a database that is no number -/
def written : Locator := ⟨true, "cache", some "07000", some "two"⟩

theorem gives_ofConnectionString_of_written :
    written.Plain ∧ written.Gives (Config.ofConnectionString "redis://cache:07000/two") := by
  have plain : written.Plain := ⟨by decide, by decide, by decide, by decide⟩
  exact ⟨plain, gives_ofConnectionString written plain⟩

/-- a port that is a word is no part of the host, yet it is read as such, and nothing finds fault
with it -/
theorem word_port_in_host :
    Plain ⟨false, "cache", some "port", some "2"⟩ ∧
      text ⟨false, "cache", some "port", some "2"⟩ = "cache:port/2" ∧
      (Config.ofConnectionString "cache:port/2").host = "cache:port" ∧
      (Config.ofConnectionString "cache:port/2").validate = .ok () := by
  refine ⟨⟨by decide, by decide, by decide, by decide⟩, by decide, by decide, by decide⟩

end Locator
end RespLink
