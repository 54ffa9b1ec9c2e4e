import Herald.Proofs.Text.Octets
import Herald.Text.Digits

/-!
Digits in text. What `Digits.text` writes is read back digit by digit, in the octets of JSON escapes
as well as in characters.
-/

namespace Herald.Text.Digits

theorem lt_of_mem_fixed {base : Nat} (hbase : 0 < base) {width value digit : Nat}
    (hmem : digit ∈ fixed base width value) : digit < base := by
  induction width generalizing value with
  | zero => simp [fixed] at hmem
  | succ width ih =>
      rw [fixed, List.mem_append, List.mem_singleton] at hmem
      rcases hmem with hfront | rfl
      · exact ih hfront
      · exact Nat.mod_lt _ hbase

theorem length_text (base width value : Nat) : (text base width value).length = width := by
  rw [text, List.length_map, length_fixed]

theorem character_lt_of_lt {digit : Nat} (hlt : digit < 16) : (character digit).toNat < 128 := by
  revert digit
  decide

theorem hexadecimal?_character {digit : Nat} (hlt : digit < 16) :
    hexadecimal? (ascii (character digit)) = some digit := by
  revert digit
  decide

theorem mapM_map_eq_some {α β : Type} {read : β → Option α} {write : α → β} {values : List α}
    (hread : ∀ value ∈ values, read (write value) = some value) :
    (values.map write).mapM read = some values := by
  induction values with
  | nil => rfl
  | cons value rest ih =>
      have hrest := ih fun other hother => hread other (List.mem_cons_of_mem _ hother)
      rw [List.map_cons, List.mapM_cons, hread value List.mem_cons_self, hrest]
      rfl

theorem isSome_of_mapM_eq_some {α β : Type} {read : β → Option α} {given : List β} {values : List α}
    (hvalues : given.mapM read = some values) : ∀ item ∈ given, (read item).isSome = true := by
  induction given generalizing values with
  | nil => exact nofun
  | cons first rest ih =>
      rw [List.mapM_cons] at hvalues
      obtain ⟨value, hfirst, hvalues⟩ := Option.bind_eq_some_iff.mp hvalues
      obtain ⟨others, hrest, -⟩ := Option.bind_eq_some_iff.mp hvalues
      rw [List.forall_mem_cons, hfirst]
      exact ⟨rfl, ih hrest⟩

theorem octetsOf_text (width value : Nat) :
    octetsOf (text 16 width value) = (fixed 16 width value).map fun digit =>
      ascii (character digit) := by
  rw [text, octetsOf_of_lt, List.map_map]
  · rfl
  · intro written hmem
    obtain ⟨digit, hdigit, rfl⟩ := List.mem_map.mp hmem
    exact character_lt_of_lt (lt_of_mem_fixed (by decide) hdigit)

theorem mapM_hexadecimal?_fixed (width value : Nat) :
    ((fixed 16 width value).map fun digit => ascii (character digit)).mapM hexadecimal? =
      some (fixed 16 width value) :=
  mapM_map_eq_some fun _ hmem => hexadecimal?_character (lt_of_mem_fixed (by decide) hmem)

end Herald.Text.Digits
