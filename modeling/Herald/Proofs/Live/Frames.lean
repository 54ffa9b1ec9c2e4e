import Herald.Live.Frame

/-!
Frames that are read back. The text of any frames that can be written is taken apart again into just
these frames, whatever their names and data are.
-/

namespace Herald

namespace Text

variable {α : Type} [DecidableEq α] {separator : α}

theorem mem_split_cons {item : α} {rest piece : List α} (hitem : item ≠ separator)
    (hpiece : piece ∈ split separator (item :: rest)) :
    piece ∈ split separator rest ∨ ∃ front ∈ split separator rest, piece = item :: front := by
  rw [split, if_neg hitem] at hpiece
  cases hsplit : split separator rest with
  | nil => exact absurd hsplit (split_ne_nil separator rest)
  | cons first others =>
      rw [hsplit] at hpiece
      rcases List.mem_cons.mp hpiece with rfl | hothers
      · exact .inr ⟨first, List.mem_cons_self, rfl⟩
      · exact .inl (List.mem_cons_of_mem _ hothers)

/-- The pieces of a text have its characters, except for the separator. -/
theorem mem_of_mem_split {items piece : List α} (hpiece : piece ∈ split separator items) :
    ∀ item ∈ piece, item ∈ items ∧ item ≠ separator := by
  induction items generalizing piece with
  | nil =>
      rw [List.mem_singleton.mp hpiece]
      exact fun _ hmem => absurd hmem List.not_mem_nil
  | cons item rest ih =>
      by_cases hitem : item = separator
      · rw [split, if_pos hitem] at hpiece
        rcases List.mem_cons.mp hpiece with rfl | hrest
        · exact fun _ hmem => absurd hmem List.not_mem_nil
        · intro other hother
          exact ⟨List.mem_cons_of_mem _ (ih hrest other hother).1, (ih hrest other hother).2⟩
      · rcases mem_split_cons hitem hpiece with hrest | ⟨front, hfront, rfl⟩
        · intro other hother
          exact ⟨List.mem_cons_of_mem _ (ih hrest other hother).1, (ih hrest other hother).2⟩
        · intro other hother
          rcases List.mem_cons.mp hother with rfl | hrest
          · exact ⟨List.mem_cons_self, hitem⟩
          · exact ⟨List.mem_cons_of_mem _ (ih hfront other hrest).1, (ih hfront other hrest).2⟩

end Text

namespace Live.Frame

variable {current line rest : List Char} {frame : Frame}

/-! Lines. -/

/-- Whether a text has no line ends. -/
def IsLine (line : List Char) : Prop := ∀ character ∈ line, character ≠ '\n' ∧ character ≠ '\r'

instance (line : List Char) : Decidable (IsLine line) :=
  List.decidableBAll (fun character => character ≠ '\n' ∧ character ≠ '\r') line

theorem lines_cons {character : Char} (hfeed : character ≠ '\n') (hreturn : character ≠ '\r') :
    lines current (character :: rest) = lines (character :: current) rest := by
  rw [lines]
  · exact fun _ heq => absurd heq hreturn
  · exact hreturn
  · exact hfeed

theorem lines_append (hline : IsLine line) :
    lines current (line ++ '\n' :: rest) = (current.reverse ++ line) :: lines [] rest := by
  induction line generalizing current with
  | nil =>
      rw [List.append_nil]
      rfl
  | cons character line ih =>
      obtain ⟨hfeed, hreturn⟩ := hline character List.mem_cons_self
      rw [List.cons_append, lines_cons hfeed hreturn,
        ih fun other hother => hline other (List.mem_cons_of_mem _ hother), List.reverse_cons,
        List.append_assoc, List.singleton_append]

/-- The line with a field and its value, without the line end. -/
def fieldLine (field : String) (value : List Char) : List Char := field.toList ++ ':' :: ' ' :: value

theorem lines_lineText {field : String} {value : List Char} (hfield : IsLine field.toList)
    (hvalue : IsLine value) :
    lines [] (lineText field value ++ rest) = fieldLine field value :: lines [] rest := by
  have hline : IsLine (fieldLine field value) := by
    intro character hmem
    rcases List.mem_append.mp hmem with hmem | hmem
    · exact hfield character hmem
    · rcases List.mem_cons.mp hmem with rfl | hmem
      · decide
      · rcases List.mem_cons.mp hmem with rfl | hmem
        · decide
        · exact hvalue character hmem
  have htext : lineText field value ++ rest = fieldLine field value ++ '\n' :: rest := by
    rw [lineText, fieldLine, List.append_assoc]
    rfl
  rw [htext, lines_append hline, List.reverse_nil, List.nil_append]

theorem lines_flatMap {field : String} {values : List (List Char)} (hfield : IsLine field.toList)
    (hvalues : ∀ value ∈ values, IsLine value) :
    lines [] (values.flatMap (lineText field) ++ rest) =
      values.map (fieldLine field) ++ lines [] rest := by
  induction values with
  | nil => rfl
  | cons value values ih =>
      rw [List.flatMap_cons, List.append_assoc,
        lines_lineText hfield (hvalues value List.mem_cons_self),
        ih fun other hother => hvalues other (List.mem_cons_of_mem _ hother)]
      rfl

theorem lines_characters (hname : IsLine frame.name.toList)
    (hdata : ∀ character ∈ frame.data.toList, character ≠ '\r') (rest : List Char) :
    lines [] (frame.characters ++ rest) =
      fieldLine "event" frame.name.toList ::
        (Text.split '\n' frame.data.toList).map (fieldLine "data") ++ [] :: lines [] rest := by
  have hpieces : ∀ piece ∈ Text.split '\n' frame.data.toList, IsLine piece := by
    intro piece hpiece character hmem
    obtain ⟨hsource, hfeed⟩ := Text.mem_of_mem_split hpiece character hmem
    exact ⟨hfeed, hdata character hsource⟩
  have hevent : IsLine "event".toList := by decide
  have hfield : IsLine "data".toList := by decide
  rw [characters, List.append_assoc, List.append_assoc, lines_lineText hevent hname,
    lines_flatMap hfield hpieces]
  rfl

/-! Fields. -/

theorem field_fieldLine {name : String} (hname : ':' ∉ name.toList) (value : List Char) :
    field (fieldLine name value) = (name.toList, value) := by
  have hbefore : ∀ character ∈ name.toList, decide (character ≠ ':') = true := by
    intro character hmem
    apply decide_eq_true
    rintro rfl
    exact hname hmem
  have hdrop : (fieldLine name value).dropWhile (· ≠ ':') = ':' :: ' ' :: value := by
    rw [fieldLine, List.dropWhile_append_of_pos hbefore]
    rfl
  have htake : (fieldLine name value).takeWhile (· ≠ ':') = name.toList := by
    rw [fieldLine, List.takeWhile_append_of_pos hbefore]
    exact List.append_nil _
  rw [field, hdrop]
  exact congrArg (·, value) htake

theorem step_event (pending : Partial) (value : List Char) :
    pending.step (fieldLine "event" value) = { pending with name := value } := by
  rw [Partial.step, field_fieldLine (by decide)]
  rfl

theorem step_data (pending : Partial) (value : List Char) :
    pending.step (fieldLine "data" value) = { pending with data := pending.data ++ [value] } := by
  rw [Partial.step, field_fieldLine (by decide)]
  rfl

theorem ofLines_fieldLine (pending : Partial) (field : String) (value : List Char)
    (rest : List (List Char)) :
    ofLines pending (fieldLine field value :: rest) =
      ofLines (pending.step (fieldLine field value)) rest := by
  have hne : fieldLine field value ≠ [] := List.append_ne_nil_of_right_ne_nil _ (List.cons_ne_nil _ _)
  cases hline : fieldLine field value with
  | nil => exact absurd hline hne
  | cons character line => rfl

theorem ofLines_data (pending : Partial) (values rest : List (List Char)) :
    ofLines pending (values.map (fieldLine "data") ++ rest) =
      ofLines { pending with data := pending.data ++ values } rest := by
  induction values generalizing pending with
  | nil =>
      rw [List.append_nil]
      rfl
  | cons value values ih =>
      rw [List.map_cons, List.cons_append, ofLines_fieldLine, step_data, ih, List.append_assoc,
        List.singleton_append]

/-! Frames. -/

theorem complete_split (name : String) (data : String) :
    Partial.complete ⟨name.toList, Text.split '\n' data.toList⟩ = [⟨name, data⟩] := by
  have hpieces : (Text.split '\n' data.toList).isEmpty = false :=
    List.isEmpty_eq_false_iff.mpr (Text.split_ne_nil _ _)
  rw [Partial.complete, hpieces, if_neg Bool.false_ne_true, Text.join_split, String.ofList_toList,
    String.ofList_toList]

theorem isWritable_iff : frame.isWritable = true ↔
    IsLine frame.name.toList ∧ ∀ character ∈ frame.data.toList, character ≠ '\r' := by
  rw [isWritable, Bool.and_eq_true, List.all_eq_true, List.all_eq_true]
  simp only [IsLine, Bool.and_eq_true, decide_eq_true_eq]

theorem ofLines_characters (hwritable : frame.isWritable = true) (rest : List Char) :
    ofLines ⟨[], []⟩ (lines [] (frame.characters ++ rest)) =
      frame :: ofLines ⟨[], []⟩ (lines [] rest) := by
  obtain ⟨hname, hdata⟩ := isWritable_iff.mp hwritable
  rw [lines_characters hname hdata, List.cons_append, ofLines_fieldLine, step_event, ofLines_data,
    List.nil_append, ofLines, complete_split]
  rfl

/-- Frames that can be written are read back from the text of all of them. -/
theorem readAll_join {frames : List Frame} (hwritable : ∀ frame ∈ frames, frame.isWritable = true) :
    readAll (String.join (frames.map text)) = frames := by
  induction frames with
  | nil => rfl
  | cons frame frames ih =>
      have hrest := ih fun other hother => hwritable other (List.mem_cons_of_mem _ hother)
      rw [readAll, String.toList_join] at hrest ⊢
      rw [List.map_cons, List.flatMap_cons, text, String.toList_ofList,
        ofLines_characters (hwritable frame List.mem_cons_self), hrest]

end Live.Frame

end Herald
