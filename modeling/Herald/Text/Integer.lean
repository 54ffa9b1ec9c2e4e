import Herald.Text.Digits

/-!
Decimal integers in text: an optional sign, then digits, within bounds. The first digit that leads
outside the bounds or is no digit decides the fault.
-/

namespace Herald.Text

inductive IntegerFault
  | empty
  | invalidDigit
  | tooLarge
  | tooSmall
  deriving DecidableEq, Repr

def IntegerFault.message : IntegerFault → String
  | .empty => "cannot parse integer from empty string"
  | .invalidDigit => "invalid digit found in string"
  | .tooLarge => "number too large to fit in target type"
  | .tooSmall => "number too small to fit in target type"

/-- Digits after a total so far, where the total may not pass `limit`. -/
def naturalUpTo (limit : Nat) (excess : IntegerFault) (total : Nat) :
    List UInt8 → Except IntegerFault Nat
  | [] => .ok total
  | octet :: rest =>
    if Digits.isDecimal octet then
      let total := total * 10 + Digits.decimal octet
      if limit < total then .error excess else naturalUpTo limit excess total rest
    else .error .invalidDigit

def natural? (limit : Nat) : List UInt8 → Except IntegerFault Nat
  | [] => .error .empty
  | [octet] =>
    if Digits.isDecimal octet then naturalUpTo limit .tooLarge 0 [octet] else .error .invalidDigit
  | octet :: rest =>
    if octet = 43 then naturalUpTo limit .tooLarge 0 rest
    else naturalUpTo limit .tooLarge 0 (octet :: rest)

def integer? : List UInt8 → Except IntegerFault Int
  | [] => .error .empty
  | [octet] =>
    if Digits.isDecimal octet then .ok (Digits.decimal octet) else .error .invalidDigit
  | octet :: rest =>
    if octet = 45 then (naturalUpTo (2 ^ 63) .tooSmall 0 rest).map fun total => -(total : Int)
    else if octet = 43 then (naturalUpTo (2 ^ 63 - 1) .tooLarge 0 rest).map Int.ofNat
    else (naturalUpTo (2 ^ 63 - 1) .tooLarge 0 (octet :: rest)).map Int.ofNat

end Herald.Text
