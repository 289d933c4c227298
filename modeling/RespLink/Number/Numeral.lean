/-!
# Decimal numerals

* `ofNat`, `ofInt`   the digits of a number, a minus sign before those of a negative one;
* `readNat`          a numeral of at most `limit`: an optional plus sign, then digits;
* `readInt`          the same with a minus sign allowed, down to `-limit - 1`;
* `int64`, `uint16`, `uint32`  the readers at the widths in use.

Leading zeros are fine; blanks and separators are not digits.  Digits are read from the left and
the first fault wins: a numeral that leaves its range before a foreign character stands is out of
range.
-/

namespace RespLink.Numeral

inductive Fault where
  | empty
  | invalidDigit
  | tooLarge
  | tooSmall
deriving DecidableEq, Repr

def Fault.message : Fault → String
  | .empty => "cannot parse integer from empty string"
  | .invalidDigit => "invalid digit found in string"
  | .tooLarge => "number too large to fit in target type"
  | .tooSmall => "number too small to fit in target type"

/-! ## writing -/

def ofNat (n : Nat) : String := String.ofList (Nat.toDigits 10 n)

def ofInt : Int → String
  | .ofNat n => ofNat n
  | .negSucc n => String.ofList ('-' :: Nat.toDigits 10 (n + 1))

/-! ## reading -/

def digit? (c : Char) : Option Nat :=
  if '0' ≤ c ∧ c ≤ '9' then some (c.toNat - '0'.toNat) else none

/-- reads digits onto `acc`; `above` is the fault of a value above `limit` -/
def readDigits (limit : Nat) (above : Fault) : Nat → List Char → Except Fault Nat
  | acc, [] => .ok acc
  | acc, c :: rest =>
    match digit? c with
    | none => .error .invalidDigit
    | some d =>
      if limit < acc * 10 + d then .error above else readDigits limit above (acc * 10 + d) rest

/-- digits after a sign: there is at least one -/
def readSigned (limit : Nat) (above : Fault) : List Char → Except Fault Nat
  | [] => .error .invalidDigit
  | cs => readDigits limit above 0 cs

def readNat (limit : Nat) : List Char → Except Fault Nat
  | [] => .error .empty
  | '+' :: rest => readSigned limit .tooLarge rest
  | cs => readDigits limit .tooLarge 0 cs

def readInt (limit : Nat) : List Char → Except Fault Int
  | [] => .error .empty
  | '-' :: rest => (readSigned (limit + 1) .tooSmall rest).map fun n => -(n : Int)
  | '+' :: rest => (readSigned limit .tooLarge rest).map Int.ofNat
  | cs => (readDigits limit .tooLarge 0 cs).map Int.ofNat

def int64 (s : String) : Except Fault Int64 :=
  (readInt (0x7fffffffffffffff) s.toList).map Int64.ofInt

def uint16 (s : String) : Except Fault UInt16 :=
  (readNat (UInt16.size - 1) s.toList).map UInt16.ofNat

def uint32 (s : String) : Except Fault UInt32 :=
  (readNat (UInt32.size - 1) s.toList).map UInt32.ofNat

end RespLink.Numeral
