import Herald.Text.Digits
import Herald.Text.Octets
import Herald.Text.Split

/-!
Percent escapes, and the pairs of a form: names and values between ampersands, where a plus sign
stands for a space.
-/

namespace Herald.Text.Percent

def sign : UInt8 := ascii '%'

/-- Undoes the escapes; a percent sign that two hexadecimal digits do not follow stays. -/
def decode : List UInt8 → List UInt8
  | [] => []
  | [octet] => [octet]
  | [first, second] => [first, second]
  | octet :: high :: low :: rest =>
    if octet = sign then
      match Digits.hexadecimal? high, Digits.hexadecimal? low with
      | some high, some low => UInt8.ofNat (high * 16 + low) :: decode rest
      | _, _ => octet :: decode (high :: low :: rest)
    else octet :: decode (high :: low :: rest)

def escaped (octet : UInt8) : List UInt8 :=
  sign :: ((Digits.text 16 2 octet.toNat).map fun digit => ascii digit.toUpper)

def encodeControls (octets : List UInt8) : List UInt8 :=
  octets.flatMap fun octet => if octet < 0x20 ∨ 0x7f ≤ octet then escaped octet else [octet]

def formDecode (octets : List UInt8) : List UInt8 :=
  decode (octets.map fun octet => if octet = ascii '+' then ascii ' ' else octet)

/-- The names and values of a form in order. A pair without an equals sign has an empty value. -/
def pairs (form : List UInt8) : List (List UInt8 × List UInt8) :=
  ((split (ascii '&') form).filter (!·.isEmpty)).map fun pair =>
    let (name, value) := splitOnce (ascii '=') pair
    (formDecode name, formDecode (value.getD []))

end Herald.Text.Percent
