import RespLink.Text.Case

/-!
# Lower case

Every character is replaced by its lower-case form.  Two characters need more than the table: the
capital I with a dot above becomes two characters, and the capital sigma becomes the final sigma
where it ends a word, which is where a cased character stands before it and none after it, not
counting the characters that case rules pass over.
-/

namespace RespLink.Text

/-- the lower-case character by the table, `c` itself if the table has none -/
def lowerChar (c : Char) : Char :=
  match lowerRuns.find? (fun r => c.toNat ≤ r.last) with
  | some r =>
    if r.first ≤ c.toNat ∧ (c.toNat - r.first) % r.step = 0 then
      Char.ofNat ((c.toNat : Int) + r.shift).toNat
    else c
  | none => c

def capitalSigma : Char := Char.ofNat 0x3A3
def smallSigma : Char := Char.ofNat 0x3C3
def finalSigma : Char := Char.ofNat 0x3C2
def dottedCapitalI : Char := Char.ofNat 0x130
def dotAbove : Char := Char.ofNat 0x307

/-- the first character that counts is a cased one -/
def meetsCased : List Char → Bool
  | [] => false
  | c :: rest => if passedOver c then meetsCased rest else cased.has c

/-- lower case of a text whose characters before this point are `before`, nearest first -/
def lowerFrom (before : List Char) : List Char → List Char
  | [] => []
  | c :: rest =>
    (if c = capitalSigma then
      [if meetsCased before && !meetsCased rest then finalSigma else smallSigma]
    else if c = dottedCapitalI then ['i', dotAbove]
    else [lowerChar c]) ++ lowerFrom (c :: before) rest

def lowercase (cs : List Char) : List Char := lowerFrom [] cs

end RespLink.Text
