import RespLink.Config
import RespLink.Proofs.Numerals

/-!
# Addresses

The address of an endpoint is its host, a colon and its port.  The host may hold colons of its own,
so the port is what follows the last colon.

* `Endpoint.Parted`   an address cut at its last colon, with something before it;
* `splitLast_eq_parts_iff`   the cut that the reader makes;
* `ofAddress_of_numeral`, `ofAddress_of_word`, `ofAddress_of_unparted`   what is read of an address
                      that is so cut, by its port, and of any other;
* `ofAddress_eq_ok_iff`, `ofAddress_eq_error_iff`   which endpoint is read, or which fault found;
* `address_injective`   an address belongs to one endpoint;
* `addresses_round_trip`   what is written is read back, and nothing else is read.
-/

namespace RespLink.Endpoint

/-- a host that is not empty, and behind the last colon the text of the port -/
structure Parted (address host port : String) : Prop where
  text : address = host ++ ":" ++ port
  last : ':' ∉ port.toList
  named : host ≠ ""

section
variable {address host port : String}

theorem splitLast_eq_parts_iff : splitLast ':' address.toList = some (host.toList, port.toList) ↔
    address = host ++ ":" ++ port ∧ ':' ∉ port.toList := by
  rw [splitLast_eq_some_iff, ← String.toList_inj, String.toList_append, String.toList_append,
    List.append_assoc]
  rfl

/-! ## reading -/

theorem ofAddress_eq (parted : Parted address host port) :
    ofAddress address =
      match Numeral.uint16 port with
      | .ok n => .ok ⟨host, n⟩
      | .error _ => .error (.config ("Invalid port in sentinel address: " ++ address)) := by
  have cut := splitLast_eq_parts_iff.mpr ⟨parted.text, parted.last⟩
  obtain ⟨c, rest, host'⟩ := List.exists_cons_of_ne_nil
    (fun empty => parted.named (String.toList_eq_nil_iff.mp empty))
  have whole : String.ofList (c :: rest) = host := by rw [← host', String.ofList_toList]
  rw [ofAddress, cut, host']
  dsimp only
  rw [String.ofList_toList]
  cases Numeral.uint16 port with
  | ok n => exact congrArg (fun host => Except.ok (Endpoint.mk host n)) whole
  | error fault => rfl

theorem ofAddress_of_numeral (parted : Parted address host port) {n : UInt16}
    (denotes : Numeral.Denotes port.toList n.toNat) : ofAddress address = .ok ⟨host, n⟩ := by
  rw [ofAddress_eq parted, Numeral.uint16_eq_ok_iff.mpr denotes]

theorem ofAddress_of_word (parted : Parted address host port)
    (word : ∀ n : UInt16, ¬ Numeral.Denotes port.toList n.toNat) :
    ofAddress address = .error (.config ("Invalid port in sentinel address: " ++ address)) := by
  rw [ofAddress_eq parted]
  cases numeral : Numeral.uint16 port with
  | ok n => exact absurd (Numeral.uint16_eq_ok_iff.mp numeral) (word n)
  | error fault => rfl

/-- no colon, or nothing before the last one -/
theorem ofAddress_of_unparted (whole : ∀ host port, ¬ Parted address host port) :
    ofAddress address = .error (.config ("Invalid sentinel address: " ++ address)) := by
  rw [ofAddress]
  cases cut : splitLast ':' address.toList with
  | none => rfl
  | some parts =>
    obtain ⟨before, after⟩ := parts
    cases before with
    | nil => rfl
    | cons c rest =>
      have parts : splitLast ':' address.toList =
          some ((String.ofList (c :: rest)).toList, (String.ofList after).toList) := by
        rw [cut, String.toList_ofList, String.toList_ofList]
      obtain ⟨text, last⟩ := splitLast_eq_parts_iff.mp parts
      have named : String.ofList (c :: rest) ≠ "" := by
        rw [Ne, ← String.toList_eq_nil_iff, String.toList_ofList]
        exact List.cons_ne_nil c rest
      exact absurd ⟨text, last, named⟩ (whole _ _)

/-- the three kinds of address -/
theorem address_cases (address : String) :
    (∃ host port, ∃ n : UInt16, Parted address host port ∧ Numeral.Denotes port.toList n.toNat) ∨
      (∃ host port, Parted address host port ∧
        ∀ n : UInt16, ¬ Numeral.Denotes port.toList n.toNat) ∨
      ∀ host port, ¬ Parted address host port := by
  by_cases parted : ∃ host port, Parted address host port
  · obtain ⟨host, port, parted⟩ := parted
    by_cases numeral : ∃ n : UInt16, Numeral.Denotes port.toList n.toNat
    · obtain ⟨n, denotes⟩ := numeral
      exact .inl ⟨host, port, n, parted, denotes⟩
    · exact .inr (.inl ⟨host, port, parted, not_exists.mp numeral⟩)
  · exact .inr (.inr fun host port h => parted ⟨host, port, h⟩)

/-- which endpoint is read -/
theorem ofAddress_eq_ok_iff {e : Endpoint} : ofAddress address = .ok e ↔
    ∃ port, Parted address e.host port ∧ Numeral.Denotes port.toList e.port.toNat := by
  constructor
  · intro read
    obtain ⟨host, port, n, parted, denotes⟩ | ⟨host, port, parted, word⟩ | whole :=
      address_cases address
    · rw [ofAddress_of_numeral parted denotes] at read
      cases read
      exact ⟨port, parted, denotes⟩
    · rw [ofAddress_of_word parted word] at read
      cases read
    · rw [ofAddress_of_unparted whole] at read
      cases read
  · rintro ⟨port, parted, denotes⟩
    exact ofAddress_of_numeral parted denotes

/-- which fault is found: the cut comes first, then the port -/
theorem ofAddress_eq_error_iff {e : Error} : ofAddress address = .error e ↔
    ((∀ host port, ¬ Parted address host port) ∧
        e = .config ("Invalid sentinel address: " ++ address)) ∨
      (∃ host port, Parted address host port ∧
          ∀ n : UInt16, ¬ Numeral.Denotes port.toList n.toNat) ∧
        e = .config ("Invalid port in sentinel address: " ++ address) := by
  constructor
  · intro fails
    obtain ⟨host, port, n, parted, denotes⟩ | ⟨host, port, parted, word⟩ | whole :=
      address_cases address
    · rw [ofAddress_of_numeral parted denotes] at fails
      cases fails
    · rw [ofAddress_of_word parted word] at fails
      exact .inr ⟨⟨host, port, parted, word⟩, (Except.error.inj fails).symm⟩
    · rw [ofAddress_of_unparted whole] at fails
      exact .inl ⟨whole, (Except.error.inj fails).symm⟩
  · rintro (⟨whole, rfl⟩ | ⟨⟨host, port, parted, word⟩, rfl⟩)
    · exact ofAddress_of_unparted whole
    · exact ofAddress_of_word parted word

end

/-! ## writing -/

/-- the port that is written holds no colon -/
theorem colon_not_mem_port (e : Endpoint) : ':' ∉ (Numeral.ofNat e.port.toNat).toList :=
  fun inside => absurd (Numeral.isDigit_of_mem_ofNat inside) (by decide)

theorem parted_address {e : Endpoint} (named : e.host ≠ "") :
    Parted e.address e.host (Numeral.ofNat e.port.toNat) :=
  ⟨rfl, e.colon_not_mem_port, named⟩

theorem ofAddress_address {e : Endpoint} (named : e.host ≠ "") : ofAddress e.address = .ok e :=
  ofAddress_of_numeral (parted_address named) (Numeral.denotes_ofNat e.port.toNat)

theorem splitLast_address (e : Endpoint) : splitLast ':' e.address.toList =
    some (e.host.toList, (Numeral.ofNat e.port.toNat).toList) :=
  splitLast_eq_parts_iff.mpr ⟨rfl, e.colon_not_mem_port⟩

/-- an address belongs to one endpoint, also if the host is empty and cannot be read back -/
theorem address_injective : Function.Injective address := by
  intro e e' same
  have cut := e.splitLast_address
  rw [same, e'.splitLast_address, Option.some.injEq, Prod.mk.injEq, String.toList_inj,
    String.toList_inj] at cut
  obtain ⟨host, digits⟩ := cut
  have read := Numeral.uint16_ofNat e.port
  rw [← digits, Numeral.uint16_ofNat] at read
  have port : e'.port = e.port := Except.ok.inj read
  cases e
  cases e'
  cases host
  cases port
  rfl

/-- **Addresses are read back.**  The address of an endpoint with a host is read as this endpoint,
whatever colons the host holds.  A text is read just when it is a host that is not empty, a colon
and a numeral of at most 65535 without a colon, and then as that host and that number. -/
theorem addresses_round_trip :
    (∀ e : Endpoint, e.host ≠ "" → ofAddress e.address = .ok e) ∧
    ∀ (address : String) (e : Endpoint), ofAddress address = .ok e ↔
      ∃ host port n, address = host ++ ":" ++ port ∧ ':' ∉ port.toList ∧
        Numeral.Denotes port.toList n ∧ n ≤ 65535 ∧ host ≠ "" ∧ e = ⟨host, UInt16.ofNat n⟩ := by
  refine ⟨fun e named => ofAddress_address named, fun address e => ?_⟩
  rw [ofAddress_eq_ok_iff]
  constructor
  · rintro ⟨port, parted, denotes⟩
    refine ⟨e.host, port, e.port.toNat, parted.text, parted.last, denotes,
      Nat.le_of_lt_succ e.port.toNat_lt, parted.named, ?_⟩
    rw [UInt16.ofNat_toNat]
  · rintro ⟨host, port, n, text, last, denotes, fits, named, rfl⟩
    have same : (UInt16.ofNat n).toNat = n := UInt16.toNat_ofNat_of_lt' (Nat.lt_succ_of_le fits)
    refine ⟨port, ⟨text, last, named⟩, ?_⟩
    show Numeral.Denotes port.toList (UInt16.ofNat n).toNat
    rw [same]
    exact denotes

/-- a host with colons that ends in a number; a port with a sign and zeros before it; and a port out
of range, which no other colon makes up for -/
theorem addresses_round_trip_of_colons :
    ("fe80::1" ≠ "" ∧ ofAddress (address ⟨"fe80::1", 26379⟩) = .ok ⟨"fe80::1", 26379⟩) ∧
      ofAddress "fe80::1:+026379" = .ok ⟨"fe80::1", 26379⟩ ∧
      ∀ e, ofAddress "fe80::1:65536" ≠ .ok e := by
  have named : "fe80::1" ≠ "" := by decide
  have denotes : Numeral.Denotes "+026379".toList 26379 :=
    @Numeral.Denotes.signed "026379".toList (by decide) (List.all_eq_true.mp (by decide))
  obtain ⟨written, read⟩ := addresses_round_trip
  refine ⟨⟨named, written ⟨"fe80::1", 26379⟩ named⟩, ?_, ?_⟩
  · have last : ':' ∉ "+026379".toList := by decide
    exact (read _ _).mpr ⟨"fe80::1", "+026379", 26379, rfl, last, denotes, by decide, named, rfl⟩
  · intro e reads
    have fails : (ofAddress "fe80::1:65536").toOption = none := by decide
    rw [reads] at fails
    cases fails

end RespLink.Endpoint

namespace RespLink.Config

/-- an endpoint that is added by its address joins the others at the end -/
theorem addSentinel_address (config : Config) {e : Endpoint} (named : e.host ≠ "") :
    config.addSentinel e.address = .ok { config with sentinels := config.sentinels ++ [e] } := by
  rw [addSentinel, Endpoint.ofAddress_address named]
  rfl

end RespLink.Config
