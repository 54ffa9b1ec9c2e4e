/-!
Digits of natural numbers in a fixed width and a base, with the characters that write them.
Reading back the digits of a number that fits the width gives the number.
-/

namespace Herald.Text.Digits

-- Powers stay those of the core library in a module that imports algebra as well.
@[default_instance 20000]
instance (priority := high) corePow {Number : Type} [NatPow Number] : Pow Number Nat := instPowNat

/-- The last `width` digits of a number, the most significant one first. -/
def fixed (base : Nat) : (width : Nat) → (value : Nat) → List Nat
  | 0, _ => []
  | width + 1, value => fixed base width (value / base) ++ [value % base]

def value (base : Nat) (digits : List Nat) : Nat :=
  digits.foldl (fun total digit => total * base + digit) 0

theorem length_fixed (base width value : Nat) : (fixed base width value).length = width := by
  induction width generalizing value with
  | zero => rfl
  | succ width hypothesis => simp [fixed, hypothesis]

theorem value_append_single (base : Nat) (digits : List Nat) (digit : Nat) :
    value base (digits ++ [digit]) = value base digits * base + digit := by
  simp [value]

theorem value_fixed (base width number : Nat) :
    value base (fixed base width number) = number % base ^ width := by
  induction width generalizing number with
  | zero => simp [fixed, value, Nat.mod_one]
  | succ width hypothesis =>
    rw [fixed, value_append_single, hypothesis, Nat.pow_succ, Nat.mul_comm (base ^ width) base,
      Nat.mod_mul, Nat.mul_comm, Nat.add_comm]

def character (digit : Nat) : Char :=
  if digit < 10 then Char.ofNat ('0'.toNat + digit) else Char.ofNat ('a'.toNat + (digit - 10))

def text (base width value : Nat) : List Char := (fixed base width value).map character

def isDecimal (octet : UInt8) : Bool := 48 ≤ octet && octet ≤ 57

/-- The value of a decimal digit; meaningful for octets that `isDecimal` accepts. -/
def decimal (octet : UInt8) : Nat := octet.toNat - 48

def hexadecimal? (octet : UInt8) : Option Nat :=
  if 48 ≤ octet && octet ≤ 57 then some (octet.toNat - 48)
  else if 97 ≤ octet && octet ≤ 102 then some (octet.toNat - 87)
  else if 65 ≤ octet && octet ≤ 70 then some (octet.toNat - 55)
  else none

end Herald.Text.Digits
