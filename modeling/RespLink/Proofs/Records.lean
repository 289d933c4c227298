import RespLink.Json.Records
import RespLink.Proofs.JsonTexts
import RespLink.Proofs.Numerals

/-!
# Records read back

Endpoints, deliveries and announcements are printed as plain values, so that their texts are read as
these values, and the values as the records.

* `numberText_toDigits`   the digits of a number are a number: no zero leads them;
* `Endpoint.labelled`  an endpoint with its host under a name of choice;
* `Json.names`         the names of the members of an object;
* `ofJson?_labelled`, `ofJson?_toJson`   each record out of its own value;
* `Documented.announcement`, `Documented.delivery`, `Documented.endpoint`   each record out of its
                       text, whoever prints and reads it as documented;
* `records_round_trip`   so it is with the printer and the reader that there are.
-/

namespace RespLink

/-! ## numbers -/

namespace Json

theorem isDigit_eq (c : Char) : isDigit c = c.isDigit := by
  rw [Bool.eq_iff_iff, isDigit, decide_eq_true_iff, Char.isDigit_iff_toNat, Char.le_def, Char.le_def,
    UInt32.le_iff_toNat_le, UInt32.le_iff_toNat_le]
  rfl

theorem isDigit_of_mem_toDigits {n : Nat} {c : Char} (h : c ∈ Nat.toDigits 10 n) :
    isDigit c = true := by
  rw [isDigit_eq]
  exact Nat.isDigit_of_mem_toDigits (by omega) (by omega) h

/-- no number but zero begins with a zero -/
theorem head?_toDigits_ne_zero {n : Nat} (positive : 0 < n) :
    (Nat.toDigits 10 n).head? ≠ some '0' := by
  induction n using Nat.strongRecOn with
  | ind n ih =>
    rw [Nat.toDigits_eq_if (by omega)]
    split
    · next small =>
      have each : ∀ d : Fin 10, 0 < d.val → [d.val.digitChar].head? ≠ some '0' := by decide
      exact each ⟨n, small⟩ positive
    · next large =>
      obtain ⟨c, rest, front, _⟩ := Numeral.toDigits_cons (n / 10)
      have first := ih (n / 10) (by omega) (by omega)
      rw [front] at first ⊢
      exact first

/-- the digits of a number have the form of a JSON number -/
theorem numberText_toDigits (n : Nat) : NumberText (Nat.toDigits 10 n) := by
  have whole : Whole (Nat.toDigits 10 n) := by
    refine ⟨⟨Nat.toDigits_ne_nil, fun c => isDigit_of_mem_toDigits⟩, fun zero => ?_⟩
    obtain rfl | positive := Nat.eq_zero_or_pos n
    · rfl
    · exact absurd zero (head?_toDigits_ne_zero positive)
  have form : NumberText ([] ++ (Nat.toDigits 10 n ++ ([] ++ []))) :=
    .intro List.mem_cons_self whole .absent .absent
  rw [List.nil_append, List.nil_append, List.append_nil] at form
  exact form

/-! ## objects -/

/-- the names of the members of an object -/
def names : Json → List (List Char)
  | object members => members.filterMap Prod.fst
  | _ => []

end Json

/-! ## endpoints -/

namespace Endpoint

/-- an endpoint as an object, its host under this name -/
def labelled (name : String) (e : Endpoint) : Json :=
  .object [(some name.toList, .ofText e.host),
    (some "port".toList, .number (Nat.toDigits 10 e.port.toNat))]

theorem toJson_eq (e : Endpoint) : e.toJson = e.labelled "host" := rfl

theorem plain_labelled (name : String) (e : Endpoint) : (e.labelled name).Plain := by
  refine .object ?_ ?_
  · simp
  · rw [List.forall_mem_cons, List.forall_mem_singleton]
    exact ⟨.string _, .number (Json.numberText_toDigits _)⟩

theorem portOfJson?_toDigits (port : UInt16) :
    portOfJson? (.number (Nat.toDigits 10 port.toNat)) = some port := by
  have all : (Nat.toDigits 10 port.toNat).all Json.isDigit = true :=
    List.all_eq_true.mpr fun c => Json.isDigit_of_mem_toDigits
  have read : Numeral.uint16 (String.ofList (Nat.toDigits 10 port.toNat)) = .ok port :=
    Numeral.uint16_ofNat port
  rw [portOfJson?, if_pos all, read]
  rfl

theorem ofJson?_labelled {name : String} (known : name ∈ ["host", "ip"]) (e : Endpoint) :
    ofJson? (e.labelled name) = some e := by
  have read : ofFields? (.ofText e.host) (.number (Nat.toDigits 10 e.port.toNat)) = some e := by
    rw [ofFields?, portOfJson?_toDigits, Json.ofText, Json.text?, String.ofList_toList]
  simp only [List.mem_cons, List.not_mem_nil, or_false] at known
  obtain rfl | rfl := known <;> exact read

end Endpoint

/-! ## announcements -/

namespace Delivery

theorem plain_toJson (d : Delivery) : d.toJson.Plain := by
  obtain ⟨pattern, channel, message⟩ := d
  refine .object ?_ ?_
  · cases pattern <;> simp
  · cases pattern <;> simp [Json.ofText, Json.Plain.string]

theorem ofJson?_toJson (d : Delivery) : ofJson? d.toJson = some d := by
  obtain ⟨pattern, channel, message⟩ := d
  cases pattern with
  | none =>
    show ofFields? .null (.ofText channel) (.ofText message) = _
    simp only [ofFields?, patternOfJson?, Json.ofText, Json.text?, String.ofList_toList]
  | some pattern =>
    show ofFields? (.ofText pattern) (.ofText channel) (.ofText message) = _
    simp only [ofFields?, patternOfJson?, Json.ofText, Json.text?, String.ofList_toList,
      Option.map_some]

/-- the pattern is named just when there is one -/
theorem pattern_mem_names_iff (d : Delivery) :
    "pattern".toList ∈ d.toJson.names ↔ d.pattern.isSome := by
  obtain ⟨pattern, channel, message⟩ := d
  cases pattern with
  | none =>
    have others : "pattern".toList ∉ ["channel".toList, "message".toList] := by decide
    exact iff_of_false others nofun
  | some pattern => exact iff_of_true List.mem_cons_self rfl

end Delivery

namespace Announcement

theorem plain_toJson (a : Announcement) : a.toJson.Plain := by
  refine .object ?_ ?_
  · simp
  · rw [List.forall_mem_cons, List.forall_mem_singleton]
    exact ⟨.string _, a.value.plain_toJson⟩

theorem ofJson?_toJson (a : Announcement) : ofJson? a.toJson = some a := by
  show ofFields? (.ofText a.status) a.value.toJson = some a
  rw [ofFields?, Json.ofText, Json.text?, String.ofList_toList, Delivery.ofJson?_toJson]

end Announcement

/-! ## texts -/

namespace Json.Documented

variable {print : Json → List Char} {parse? : List Char → Option Json}

theorem announcement (h : Documented print parse?) (a : Announcement) :
    (parse? (print a.toJson)).bind Announcement.ofJson? = some a ∧
      ∃ status value, parse? (print a.toJson) =
          some (.object [(some "status".toList, status), (some "value".toList, value)]) ∧
        ("pattern".toList ∈ value.names ↔ a.value.pattern.isSome) := by
  rw [h.parse_print a.plain_toJson]
  exact ⟨a.ofJson?_toJson, _, _, rfl, a.value.pattern_mem_names_iff⟩

theorem delivery (h : Documented print parse?) (d : Delivery) :
    (parse? (print d.toJson)).bind Delivery.ofJson? = some d ∧
      ∃ value, parse? (print d.toJson) = some value ∧
        ("pattern".toList ∈ value.names ↔ d.pattern.isSome) := by
  rw [h.parse_print d.plain_toJson]
  exact ⟨d.ofJson?_toJson, _, rfl, d.pattern_mem_names_iff⟩

theorem endpoint (h : Documented print parse?) {name : String} (known : name ∈ ["host", "ip"])
    (e : Endpoint) : (parse? (print (e.labelled name))).bind Endpoint.ofJson? = some e := by
  rw [h.parse_print (e.plain_labelled name)]
  exact e.ofJson?_labelled known

end Json.Documented

/-- **Records are read back from their texts.**  What an announcement or a delivery is printed as is
read as the same value, whatever characters its texts hold, and the object has a pattern just when
the delivery has one.  The same holds of an endpoint, also if its host is named `ip`. -/
theorem records_round_trip :
    (∀ a : Announcement, (Json.parse? a.text.toList).bind Announcement.ofJson? = some a ∧
      ∃ status value, Json.parse? a.text.toList =
          some (.object [(some "status".toList, status), (some "value".toList, value)]) ∧
        ("pattern".toList ∈ value.names ↔ a.value.pattern.isSome)) ∧
    (∀ d : Delivery, (Json.parse? d.toJson.print).bind Delivery.ofJson? = some d ∧
      ∃ value, Json.parse? d.toJson.print = some value ∧
        ("pattern".toList ∈ value.names ↔ d.pattern.isSome)) ∧
    ∀ e : Endpoint, (Json.parse? e.toJson.print).bind Endpoint.ofJson? = some e ∧
      (Json.parse? (e.labelled "ip").print).bind Endpoint.ofJson? = some e := by
  refine ⟨fun a => ?_, Json.documented.delivery, fun e => ?_⟩
  · rw [Announcement.text, String.toList_ofList]
    exact Json.documented.announcement a
  · rw [Endpoint.toJson_eq]
    exact ⟨Json.documented.endpoint (by decide) e, Json.documented.endpoint (by decide) e⟩

/-- a quote, a character that needs no escape, one with a short name and one by number -/
example : (Announcement.mk "ok" ⟨none, "t\"é", "\n\x01"⟩).text =
    "\x7b\"status\":\"ok\",\"value\":\x7b\"channel\":\"t\\\"é\",\"message\":\"\\n\\u0001\"\x7d\x7d" := by
  decide

end RespLink
