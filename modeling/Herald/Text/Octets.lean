/-!
The octets of a text, the text that octets spell, and the line and column at which an octet stands.
Lines and columns count octets, and a line feed ends a line.
-/

namespace Herald.Text

def ascii (character : Char) : UInt8 := character.val.toUInt8

def octets (text : String) : List UInt8 := text.toUTF8.data.toList

/-- The text that well-formed octets spell; ill-formed octets spell none. -/
def ofOctets? (octets : List UInt8) : Option String := String.fromUTF8? ⟨octets.toArray⟩

theorem ofOctets?_octets (text : String) : ofOctets? (octets text) = some text := by
  have whole : (⟨text.toUTF8.data.toList.toArray⟩ : ByteArray) = text.toByteArray := by
    simp [String.toUTF8]
  rw [ofOctets?, octets, whole, String.fromUTF8?, dif_pos text.isValidUTF8]
  rfl

structure Position where
  line : Nat
  column : Nat
  deriving DecidableEq, Repr

def Position.start : Position := ⟨1, 0⟩

def Position.step (position : Position) (octet : UInt8) : Position :=
  if octet = ascii '\n' then ⟨position.line + 1, 0⟩ else ⟨position.line, position.column + 1⟩

def Position.after (octets : List UInt8) : Position := octets.foldl Position.step Position.start

/-- The position in `input` at which `unread` octets are still to come. -/
def Position.before (input : List UInt8) (unread : Nat) : Position :=
  Position.after (input.take (input.length - unread))

end Herald.Text
