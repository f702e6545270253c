/-! Comparison of names without regard to letter case. -/

namespace CostTape.Text

/-- Simple case folding towards ASCII lower case.  The long s and the Kelvin
sign are the only characters beyond ASCII that fold to an ASCII letter. -/
def foldChar (char : Char) : Char :=
  if 'A' ≤ char ∧ char ≤ 'Z' then Char.ofNat (char.toNat + 32)
  else if char.toNat = 0x17f then 's'
  else if char.toNat = 0x212a then 'k'
  else char

/-- Lower case towards ASCII.  The dotted capital I and the Kelvin sign are the
only characters beyond ASCII whose lower case is an ASCII letter. -/
def lowerChar (char : Char) : Char :=
  if char.toNat = 0x130 then 'i'
  else if char.toNat = 0x212a then 'k'
  else char.toLower

def sameName (text name : String) : Bool :=
  text.toList.map foldChar == name.toList.map foldChar

end CostTape.Text
