import Herald.Text.Octets

/-!
The octets of a text, character by character. A character below 128 is one octet; all octets of any
other character are at least 128, so no such octet is taken for one of the former.
-/

namespace Herald.Text

def octetsOf (characters : List Char) : List UInt8 :=
  characters.flatMap String.utf8EncodeChar

theorem octets_eq_octetsOf (text : String) : octets text = octetsOf text.toList := by
  rw [octets, String.toUTF8_eq_toByteArray, ← String.utf8Encode_toList, List.utf8Encode,
    List.data_toByteArray]
  rfl

theorem octets_ofList (characters : List Char) :
    octets (String.ofList characters) = octetsOf characters := by
  rw [octets_eq_octetsOf, String.toList_ofList]

theorem octets_append (left right : String) :
    octets (left ++ right) = octets left ++ octets right := by
  simp only [octets_eq_octetsOf, String.toList_append, octetsOf, List.flatMap_append]

theorem utf8EncodeChar_of_lt {character : Char} (hlt : character.toNat < 128) :
    String.utf8EncodeChar character = [ascii character] := by
  apply String.utf8EncodeChar_eq_singleton
  rw [Char.utf8Size_eq_one_iff, UInt32.le_iff_toNat_le]
  change character.toNat ≤ 127
  omega

theorem octetsOf_of_lt {characters : List Char}
    (hlt : ∀ character ∈ characters, character.toNat < 128) :
    octetsOf characters = characters.map ascii := by
  induction characters with
  | nil => rfl
  | cons character rest ih =>
      have hrest := ih fun other hother => hlt other (List.mem_cons_of_mem _ hother)
      rw [octetsOf] at hrest ⊢
      rw [List.flatMap_cons, hrest, utf8EncodeChar_of_lt (hlt character List.mem_cons_self)]
      rfl

theorem le_of_mem_utf8EncodeChar {character : Char} (hle : 128 ≤ character.toNat) {octet : UInt8}
    (hmem : octet ∈ String.utf8EncodeChar character) : 128 ≤ octet.toNat := by
  have hval : 127 < character.val.toNat := hle
  unfold String.utf8EncodeChar at hmem
  dsimp only at hmem
  split at hmem
  · omega
  split at hmem
  · simp only [List.mem_cons, List.not_mem_nil, or_false] at hmem
    rcases hmem with rfl | rfl <;> simp only [UInt8.toNat_ofNat'] <;> omega
  split at hmem
  · simp only [List.mem_cons, List.not_mem_nil, or_false] at hmem
    rcases hmem with rfl | rfl | rfl <;> simp only [UInt8.toNat_ofNat'] <;> omega
  · simp only [List.mem_cons, List.not_mem_nil, or_false] at hmem
    rcases hmem with rfl | rfl | rfl | rfl <;> simp only [UInt8.toNat_ofNat'] <;> omega

theorem ofOctets?_eq_some_iff {spelled : List UInt8} {text : String} :
    ofOctets? spelled = some text ↔ octets text = spelled := by
  constructor
  · intro htext
    rw [ofOctets?, String.fromUTF8?] at htext
    split at htext
    case isTrue hvalid =>
      cases htext
      rfl
    case isFalse => cases htext
  · rintro rfl
    exact ofOctets?_octets text

end Herald.Text
