import Herald.Json.Numeral
import Herald.Json.Quotation

/-!
The reader of any JSON value. Lists and records may be nested up to a limit, and an unpaired
surrogate, a control character or a number out of range is a fault wherever it stands.
-/

namespace Herald.Json

open Text (ascii)

def nestingLimit : Nat := 127

def Value.read (depth : Nat) : Reader Value := do
  match ← Reader.peekToken with
  | none => Reader.failNext .endInValue
  | some octet =>
    if octet = ascii 'n' then
      Reader.advance
      Reader.word ['u', 'l', 'l']
      pure .null
    else if octet = ascii 't' then
      Reader.advance
      Reader.word ['r', 'u', 'e']
      pure (.boolean true)
    else if octet = ascii 'f' then
      Reader.advance
      Reader.word ['a', 'l', 's', 'e']
      pure (.boolean false)
    else if octet = ascii '-' || Text.Digits.isDecimal octet then
      let number ← Numeral.number
      pure (.number number)
    else if octet = ascii '"' then
      let text ← Quotation.quoted
      pure (.text text)
    else if octet = ascii '[' then
      match depth with
      | 0 => Reader.failNext .tooDeep
      | depth + 1 =>
        let items ← Reader.inList <| Reader.foldItems
          (fun items => do
            let item ← Value.read depth
            pure (item :: items)) []
        pure (.list items.reverse)
    else if octet = ascii '\x7b' then
      match depth with
      | 0 => Reader.failNext .tooDeep
      | depth + 1 =>
        let members ← Reader.inRecord <| Reader.foldMembers Quotation.quoted
          (fun members key => do
            let value ← Reader.member key (Value.read depth)
            pure ((key, value) :: members)) []
        pure (.record members.reverse)
    else Reader.failNext .expectedValue

end Herald.Json
