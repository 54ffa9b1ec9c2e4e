import Herald.Json.Record
import Herald.Proofs.Json.Passing

/-!
Where the values of a record stand in its text. A member is described by its name and the place of
its value, from where the value may be read again on its own. A text consists of such members if it is
a record of them and each value is passed over.
-/

namespace Herald.Json

open Text (ascii)

variable {α β γ δ : Type}

/-- Where a value stands: the text from its start on, and the text behind it. -/
structure Span where
  start : List UInt8
  behind : List UInt8

namespace Span

/-- What the reader makes of the value. -/
def meaning (reader : Reader α) (span : Span) : Option α :=
  match reader span.start with
  | .done value _ => some value
  | .fault _ _ => none

/-- The reader ends where the value does, or it fails. -/
def Fits (span : Span) (reader : Reader α) : Prop :=
  (reader span.start).Means (span.meaning reader) span.behind

def Spells (span : Span) (document : Value) : Prop :=
  Value.read nestingLimit span.start = .done document span.behind

variable {span : Span} {reader : Reader α}

theorem meaning_of_done {value : α} {rest : List UInt8}
    (hdone : reader span.start = .done value rest) : span.meaning reader = some value := by
  rw [meaning, hdone]

theorem fits_of_done {value : α} (hdone : reader span.start = .done value span.behind) :
    span.Fits reader := by
  rw [Fits, meaning_of_done hdone]
  exact hdone

theorem Fits.done_of_meaning {value : α} (hfits : span.Fits reader)
    (hmeaning : span.meaning reader = some value) :
    reader span.start = .done value span.behind := by
  rw [Fits, hmeaning] at hfits
  exact hfits

theorem meaning_map (change : α → β) :
    span.meaning (reader >>= fun value => pure (change value)) =
      (span.meaning reader).map change := by
  rw [meaning, meaning, Reader.bind_apply]
  cases reader span.start with
  | done value rest => rfl
  | fault problem rest => rfl

theorem Fits.map (hfits : span.Fits reader) (change : α → β) :
    span.Fits (reader >>= fun value => pure (change value)) := by
  rw [Fits, meaning_map, Reader.bind_apply]
  rw [Fits] at hfits
  cases hread : reader span.start with
  | done value rest =>
      rw [meaning_of_done hread] at hfits ⊢
      cases hread.symm.trans hfits
      rfl
  | fault problem rest =>
      rw [meaning, hread]
      exact ⟨problem, rest, rfl⟩

end Span

namespace Reader

/-- Gives the place of what is read. -/
def spanned (reader : Reader α) : Reader Span := fun input =>
  match reader input with
  | .done _ rest => .done ⟨input, rest⟩ rest
  | .fault problem rest => .fault problem rest

theorem spanned_eq_done_iff {reader : Reader α} {input rest : List UInt8} {span : Span} :
    spanned reader input = .done span rest ↔
      span = ⟨input, rest⟩ ∧ ∃ value, reader input = .done value rest := by
  rw [spanned]
  cases reader input with
  | done value left =>
      constructor
      · intro hdone
        cases hdone
        exact ⟨rfl, value, rfl⟩
      · rintro ⟨rfl, _, hdone⟩
        cases hdone
        rfl
  | fault problem left =>
      constructor
      · intro hdone
        cases hdone
      · rintro ⟨_, _, hdone⟩
        cases hdone

/-- The members of a record with the places of their values, each of which is passed over. -/
def spans (value : Reader α) : Reader (List (String × Span)) := Shape.byFirst fun octet =>
  if octet = ascii '\x7b' then inRecord do
    let members ← foldMembers Quotation.quoted (gather (spanned value)) []
    pure members.reverse
  else Shape.unexpected "a record"

/-- What closes a record that is a whole text. -/
def Closes (left : List UInt8) : Prop :=
  ∃ behind, closeRecord left = .done () behind ∧ behind.dropWhile isBlank = []

theorem enclosed_eq_done_iff {reader : Reader α} {close : Reader Unit} {inside rest : List UInt8}
    {result : α} :
    enclosed reader close inside = .done result rest ↔
      ∃ left, reader inside = .done result left ∧ close left = .done () rest := by
  rw [enclosed]
  cases hreader : reader inside with
  | fault problem left => simp
  | done value left =>
      cases hclose : close left with
      | fault problem behind => simp [hclose]
      | done closed behind =>
          simp only [hclose, Outcome.done.injEq]
          constructor
          · rintro ⟨rfl, rfl⟩
            exact ⟨left, ⟨rfl, rfl⟩, hclose⟩
          · rintro ⟨_, ⟨rfl, rfl⟩, hrest⟩
            cases hclose.symm.trans hrest
            exact ⟨rfl, rfl⟩

theorem inList_eq_done_iff {reader : Reader α} {octet : UInt8} {inside rest : List UInt8}
    {result : α} :
    inList reader (octet :: inside) = .done result rest ↔
      ∃ left, reader inside = .done result left ∧ closeList left = .done () rest :=
  enclosed_eq_done_iff

/-- A list that can be closed has no further item. -/
theorem nextItem_of_closeList {input rest : List UInt8} (hclose : closeList input = .done () rest)
    (first : Bool) : nextItem first input = .done false (input.dropWhile isBlank) := by
  cases hinput : input.dropWhile isBlank with
  | nil =>
      rw [closeList, bind_done (peekToken_of_nil hinput)] at hclose
      cases hclose
  | cons octet inside =>
      rw [closeList, bind_done (peekToken_of_cons hinput)] at hclose
      rw [nextItem, bind_done (peekToken_of_cons hinput)]
      dsimp only at hclose ⊢
      split at hclose
      case isTrue hend =>
        rw [if_pos hend]
        rfl
      case isFalse =>
        split at hclose
        case isTrue =>
          obtain ⟨_, after, -, hclose⟩ := bind_eq_done hclose
          obtain ⟨next, unread, -, hclose⟩ := bind_eq_done hclose
          cases next with
          | none => cases hclose
          | some next =>
              dsimp only at hclose
              split at hclose
              · cases hclose
              · cases hclose
        case isFalse => cases hclose

theorem inRecord_eq_done_iff {reader : Reader α} {octet : UInt8} {inside rest : List UInt8}
    {result : α} :
    inRecord reader (octet :: inside) = .done result rest ↔
      ∃ left, reader inside = .done result left ∧ closeRecord left = .done () rest :=
  enclosed_eq_done_iff

theorem whole_eq_done_iff {reader : Reader α} {input rest : List UInt8} {result : α} :
    whole reader input = .done result rest ↔
      rest = [] ∧ ∃ behind, reader input = .done result behind ∧ behind.dropWhile isBlank = [] := by
  constructor
  · intro hdone
    obtain ⟨value, behind, hreader, hdone⟩ := bind_eq_done hdone
    obtain ⟨_, left, hfinished, hpure⟩ := bind_eq_done hdone
    cases hpure
    cases hbehind : behind.dropWhile isBlank with
    | nil =>
        rw [finished, bind_done (peekToken_of_nil hbehind)] at hfinished
        cases hfinished
        exact ⟨rfl, behind, hreader, hbehind⟩
    | cons octet inside =>
        rw [finished, bind_done (peekToken_of_cons hbehind)] at hfinished
        cases hfinished
  · rintro ⟨rfl, behind, hreader, hbehind⟩
    have hfinished : finished behind = .done () [] := by
      rw [finished, bind_done (peekToken_of_nil hbehind)]
      rfl
    rw [whole, bind_done hreader, bind_done hfinished]
    rfl

/-- A text that is one record, read by its inside. -/
theorem whole_record_eq_done_iff {read : UInt8 → Reader α} {reader : Reader α}
    (hread : read (ascii '\x7b') = inRecord reader) {document inside rest : List UInt8} {result : α}
    (hdocument : document.dropWhile isBlank = ascii '\x7b' :: inside) :
    whole (Shape.byFirst read) document = .done result rest ↔
      rest = [] ∧ ∃ left, reader inside = .done result left ∧ Closes left := by
  rw [whole_eq_done_iff, Shape.byFirst_of_cons hdocument, hread]
  constructor
  · rintro ⟨hrest, behind, hrecord, hbehind⟩
    obtain ⟨left, hreader, hclose⟩ := inRecord_eq_done_iff.mp hrecord
    exact ⟨hrest, left, hreader, behind, hclose, hbehind⟩
  · rintro ⟨hrest, left, hreader, behind, hclose, hbehind⟩
    exact ⟨hrest, behind, inRecord_eq_done_iff.mpr ⟨left, hreader, hclose⟩, hbehind⟩

/-- A reader of records alone. -/
theorem whole_only_record_eq_done_iff {reader : Reader α} {expected : String}
    {document rest : List UInt8} {result : α} :
    whole (Shape.byFirst fun octet =>
        if octet = ascii '\x7b' then inRecord reader else Shape.unexpected expected) document =
        .done result rest ↔
      rest = [] ∧ ∃ inside left, document.dropWhile isBlank = ascii '\x7b' :: inside ∧
        reader inside = .done result left ∧ Closes left := by
  constructor
  · intro hdone
    obtain ⟨-, behind, hread, -⟩ := whole_eq_done_iff.mp hdone
    obtain ⟨octet, inside, hdocument, hread⟩ := Shape.exists_of_byFirst hread
    split at hread
    case isTrue hrecord =>
      subst hrecord
      obtain ⟨hrest, left, hreader, hcloses⟩ :=
        (whole_record_eq_done_iff (if_pos rfl) hdocument).mp hdone
      exact ⟨hrest, inside, left, hdocument, hreader, hcloses⟩
    case isFalse => exact absurd hread (Fails.unexpected expected).ne_done
  · rintro ⟨hrest, inside, left, hdocument, hreader, hcloses⟩
    exact (whole_record_eq_done_iff (if_pos rfl) hdocument).mpr ⟨hrest, left, hreader, hcloses⟩

end Reader

/-- The text is a record of the members, and the reader passes over the value of each. -/
def Consists (value : Reader α) (document : List UInt8) (members : List (String × Span)) : Prop :=
  Reader.whole (Reader.spans value) document = .done members []

theorem consists_iff {value : Reader α} {document : List UInt8} {members : List (String × Span)} :
    Consists value document members ↔
      ∃ inside left, document.dropWhile Reader.isBlank = ascii '\x7b' :: inside ∧
        Reader.foldMembers Quotation.quoted (gather (Reader.spanned value)) [] inside =
          .done members.reverse left ∧ Reader.Closes left := by
  have hinside {inside left : List UInt8} :
      (do
        let members ← Reader.foldMembers Quotation.quoted (gather (Reader.spanned value)) []
        pure members.reverse : Reader (List (String × Span))) inside = .done members left ↔
        Reader.foldMembers Quotation.quoted (gather (Reader.spanned value)) [] inside =
          .done members.reverse left := by
    constructor
    · intro hdone
      obtain ⟨found, hfound, rfl⟩ := Reader.map_eq_done hdone
      rwa [List.reverse_reverse]
    · intro hdone
      rw [Reader.bind_done hdone, List.reverse_reverse]
      rfl
  rw [Consists, Reader.spans, Reader.whole_only_record_eq_done_iff]
  simp only [true_and, hinside]

/-- The reader passed over each of the members. -/
theorem passes_of_gathered {value : Reader α} {inside left : List UInt8}
    {members : List (String × Span)}
    (hmembers : Reader.foldMembers Quotation.quoted (gather (Reader.spanned value)) [] inside =
      .done members.reverse left) :
    ∀ member ∈ members, ∃ passed, value member.2.start = .done passed member.2.behind := by
  obtain ⟨found, hfound, hread, -⟩ :=
    means_loop_gather (gather (Reader.spanned value)) (fun _ _ => none) hmembers
  rw [List.append_nil, List.reverse_inj] at hfound
  subst hfound
  intro member hmem
  obtain ⟨input, rest, hmember⟩ := hread member hmem
  obtain ⟨_, between, -, hspan⟩ := Reader.bind_eq_done (Reader.under_eq_done hmember)
  obtain ⟨hplace, hpassed⟩ := Reader.spanned_eq_done_iff.mp hspan
  rw [hplace]
  exact hpassed

theorem Consists.passes {value : Reader α} {document : List UInt8} {members : List (String × Span)}
    (hconsists : Consists value document members) :
    ∀ member ∈ members, ∃ passed, value member.2.start = .done passed member.2.behind := by
  obtain ⟨inside, left, -, hmembers, -⟩ := consists_iff.mp hconsists
  exact passes_of_gathered hmembers

theorem Tracks.fits {leader : Reader β} {reader : Reader α} (htracks : Tracks leader reader)
    {span : Span} {passed : β} (hpassed : leader span.start = .done passed span.behind) :
    span.Fits reader := by
  rw [Span.Fits, Span.meaning]
  cases hread : reader span.start with
  | fault problem left => exact ⟨problem, left, rfl⟩
  | done value left =>
      obtain ⟨other, hother⟩ := htracks span.start value left hread
      cases hpassed.symm.trans hother
      rfl

theorem mem_of_filter {members : List (String × Span)} {name : String} {span : Span}
    (hfilter : members.filter (·.1 = name) = [(name, span)]) : (name, span) ∈ members :=
  (List.mem_filter.mp (hfilter ▸ List.mem_singleton_self _)).1

/-- A value with a meaning is read to its end. -/
theorem Consists.done_of_meaning {leader : Reader β} {document : List UInt8}
    {members : List (String × Span)} (hconsists : Consists leader document members)
    {reader : Reader α} (htracks : Tracks leader reader) {name : String} {span : Span} {value : α}
    (hmem : (name, span) ∈ members) (hmeaning : span.meaning reader = some value) :
    reader span.start = .done value span.behind := by
  obtain ⟨passed, hpassed⟩ := hconsists.passes (name, span) hmem
  exact (htracks.fits hpassed).done_of_meaning hmeaning

theorem Tracks.spanned {leader : Reader β} {reader : Reader α} (htracks : Tracks leader reader) :
    Tracks (Reader.spanned leader) reader := by
  intro input result rest hdone
  obtain ⟨value, hleader⟩ := htracks input result rest hdone
  exact ⟨⟨input, rest⟩, Reader.spanned_eq_done_iff.mpr ⟨rfl, value, hleader⟩⟩

end Herald.Json
